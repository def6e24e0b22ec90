import KelvinClaw.Cli.TrustMerge
import KelvinClaw.Library.KeyedLists
import Mathlib.Data.Finset.Lattice.Basic

/-!
# What a merged trust policy means

The merge works on the JSON of two policies, and the loader reads the result. The loader takes the
last key of a publisher and ignores the white space around the ids of revoked publishers and of
pins, while the merge replaces the first entry of a publisher and goes by the pins as they are
spelled.

So the result is what the merge is for, the keys and the pins of both with those of the downloaded
policy first, unless the local policy lists a publisher twice or the two spell the id of a plugin in
different ways. And the merge fails if the local policy has no publishers.
-/

namespace KelvinClaw.Cli

open KelvinClaw.Core KelvinClaw.Plugin PublisherTrustPolicy Systems

variable {κ ς : Type} {library : SignatureLibrary κ ς}

/-! ### What the merge is for -/

/-- The policy `after` has what `before` and `theirs` have; a key or a pin of `theirs` comes
first. -/
structure Combines (before theirs after : PublisherTrustPolicy κ) : Prop where
  requires : after.requireSignature = (before.requireSignature && theirs.requireSignature)
  trusted : ∀ publisher, after.trustedPublishers publisher =
    (theirs.trustedPublishers publisher).or (before.trustedPublishers publisher)
  revoked : after.revokedPublishers = before.revokedPublishers ∪ theirs.revokedPublishers
  pinned : ∀ pluginId, after.pinnedPluginPublishers pluginId =
    (theirs.pinnedPluginPublishers pluginId).or (before.pinnedPluginPublishers pluginId)

/-- The merge succeeds, its result can be read, and whatever is read combines policies that can be
read from the two files. -/
def MergeMeans (library : SignatureLibrary κ ς) (base incoming : Value) : Prop :=
  ∃ merged, mergePolicies base incoming = .ok merged ∧ (∃ after, Reads library merged after) ∧
    ∀ after, Reads library merged after → ∃ before theirs, Reads library base before ∧
      Reads library incoming theirs ∧ Combines before theirs after

/-- A policy with an object for each publisher, and with its pins in the order of their keys. -/
structure Document (policy : Value) : Prop where
  publishers : ∀ pub ∈ incomingItems "publishers" policy, ∃ members, pub = .obj members
  pins : (incomingPins policy).Pairwise fun a b => a.1 < b.1

def Pins (file : PublisherTrustPolicyFile) (pluginId publisher : String) : Prop :=
  ∃ pin ∈ file.pinnedPluginPublishers, PinsPlugin pluginId pin ∧ trim pin.2 = publisher

/-- A file pins the plugin to the publisher with a spelling that another file does not have. -/
def PinsApart (file other : PublisherTrustPolicyFile) (pluginId publisher : String) : Prop :=
  ∃ pin ∈ file.pinnedPluginPublishers, PinsPlugin pluginId pin ∧ trim pin.2 = publisher ∧
    ∀ pin' ∈ other.pinnedPluginPublishers, pin'.1 ≠ pin.1

/-- The two policies do not stand in each other's way. -/
structure MergesCleanly (base : Value) (file theirFile : PublisherTrustPolicyFile)
    (before theirs : PublisherTrustPolicy κ) : Prop where
  /-- The local policy has publishers. -/
  listed : (base.get "publishers").bind Value.asArray ≠ none
  /-- It has one entry of a publisher that the downloaded policy has too, or the same key. -/
  publishers : ∀ entry ∈ theirFile.publishers,
    (file.publishers.filter (·.id = entry.id)).length ≤ 1 ∨
      before.trustedPublishers entry.id = theirs.trustedPublishers entry.id
  /-- It does not pin a plugin to another publisher under another spelling. -/
  spelled : ∀ pluginId publisher, (∃ other, Pins theirFile pluginId other) →
    PinsApart file theirFile pluginId publisher → Pins theirFile pluginId publisher
  /-- Its pins are not all overwritten by blank ones. -/
  kept : ∀ pluginId, (∃ publisher, Pins file pluginId publisher) →
    (∃ other, Pins theirFile pluginId other) ∨
      ∃ publisher, PinsApart file theirFile pluginId publisher

/-! ### Readings of a file -/

section Readings

variable {value : Value} {file : PublisherTrustPolicyFile} {policy : PublisherTrustPolicy κ}

theorem readOf_reads (readsFile : fileOfValue value = some file)
    (reads : Reads library value policy) : ∃ pins, pins.Perm file.pinnedPluginPublishers ∧
      ReadOf library { file with pinnedPluginPublishers := pins } policy := by
  obtain ⟨found, pins, isFile, order, isPolicy⟩ := reads
  obtain rfl := Option.some_inj.mp (readsFile.symm.trans isFile)
  exact ⟨pins, order, readOf_ofFile isPolicy⟩

theorem pins_of_reads (readsFile : fileOfValue value = some file)
    (reads : Reads library value policy) {pluginId publisher : String}
    (pinned : policy.pinnedPluginPublishers pluginId = some publisher) :
    Pins file pluginId publisher := by
  obtain ⟨pins, order, isPolicy⟩ := readOf_reads readsFile reads
  rw [isPolicy.pinned] at pinned
  obtain ⟨pin, last, same⟩ := Option.map_eq_some_iff.mp pinned
  obtain ⟨member, chosen⟩ := List.mem_filter.mp (List.mem_of_getLast? last)
  exact ⟨pin, order.mem_iff.mp member, chosen, same⟩

theorem exists_pinned_of_pins (readsFile : fileOfValue value = some file)
    (reads : Reads library value policy) {pluginId publisher : String}
    (pins : Pins file pluginId publisher) :
    ∃ other, policy.pinnedPluginPublishers pluginId = some other := by
  obtain ⟨order, same, isPolicy⟩ := readOf_reads readsFile reads
  obtain ⟨pin, member, chosen, -⟩ := pins
  have listed : pin ∈ order.filter (PinsPlugin pluginId) :=
    List.mem_filter.mpr ⟨same.mem_iff.mpr member, chosen⟩
  rw [isPolicy.pinned]
  cases last : (order.filter (PinsPlugin pluginId)).getLast? with
  | none =>
    rw [List.getLast?_eq_none_iff.mp last] at listed
    cases listed
  | some other => exact ⟨trim other.2, rfl⟩

theorem trusted_of_reads {other : PublisherTrustPolicy κ}
    (readsFile : fileOfValue value = some file) (reads : Reads library value policy)
    (readsOther : Reads library value other) :
    policy.trustedPublishers = other.trustedPublishers := by
  obtain ⟨_, -, isPolicy⟩ := readOf_reads readsFile reads
  obtain ⟨_, -, isOther⟩ := readOf_reads readsFile readsOther
  funext publisher
  rw [isPolicy.trusted, isOther.trusted]

theorem exists_reading (readsFile : fileOfValue value = some file)
    (reads : Reads library value policy) (choice : String → Option String) :
    ∃ read, Reads library value read ∧ ∀ pluginId publisher, Pins file pluginId publisher →
      choice pluginId = some publisher → read.pinnedPluginPublishers pluginId = some publisher := by
  obtain ⟨_, _, isFile, -, accepted⟩ := reads
  obtain rfl := Option.some_inj.mp (readsFile.symm.trans isFile)
  let chosen : String × String → Bool := fun pin => choice (trim pin.1) == some (trim pin.2)
  -- the chosen pins come last
  let pins := file.pinnedPluginPublishers.filter (fun pin => !chosen pin) ++
    file.pinnedPluginPublishers.filter chosen
  have order : pins.Perm file.pinnedPluginPublishers :=
    List.perm_append_comm.trans (List.filter_append_perm chosen _)
  obtain ⟨read, isRead⟩ := @ofFile_reorder _ _ _ _ _ pins accepted
  refine ⟨read, ⟨file, pins, readsFile, order, isRead⟩, fun pluginId publisher has chooses => ?_⟩
  obtain ⟨pin, member, pinsPlugin, same⟩ := has
  have isPin : trim pin.1 = pluginId := (decide_eq_true_iff.mp pinsPlugin).1
  have isChosen : chosen pin = true := by
    rw [← same] at chooses
    exact beq_iff_eq.mpr (isPin.symm ▸ chooses)
  rw [(readOf_ofFile isRead).pinned]
  have nonempty : (file.pinnedPluginPublishers.filter chosen).filter (PinsPlugin pluginId) ≠ [] :=
    List.ne_nil_of_mem (List.mem_filter.mpr ⟨List.mem_filter.mpr ⟨member, isChosen⟩, pinsPlugin⟩)
  change ((pins.filter (PinsPlugin pluginId)).getLast?.map fun pin => trim pin.2) = some publisher
  rw [List.filter_append, List.getLast?_append_of_ne_nil _ nonempty]
  obtain ⟨last, ends⟩ := Option.ne_none_iff_exists'.mp (mt List.getLast?_eq_none_iff.mp nonempty)
  obtain ⟨inside, pinsLast⟩ := List.mem_filter.mp (List.mem_of_getLast? ends)
  have lastChosen := beq_iff_eq.mp (List.mem_filter.mp inside).2
  rw [(decide_eq_true_iff.mp pinsLast).1, chooses] at lastChosen
  rw [ends, Option.map_some, Option.some_inj.mp lastChosen]

theorem exists_ofFile_iff : (∃ policy, ofFile library file = .ok policy) ↔
    ∀ entry ∈ file.publishers, ∃ key, parsePublicKey library entry.ed25519PublicKey = .ok key := by
  have keyed (entries : List TrustedPublisherEntry) (start : PublisherTrustPolicy κ) :
      (∃ policy, entries.foldlM (fun policy entry =>
        policy.withPublisherKey library entry.id entry.ed25519PublicKey) start = .ok policy) ↔
        ∀ entry ∈ entries, ∃ key, parsePublicKey library entry.ed25519PublicKey = .ok key := by
    induction entries generalizing start with
    | nil => exact iff_of_true ⟨start, rfl⟩ (List.forall_mem_nil _)
    | cons entry rest ih =>
      rw [List.forall_mem_cons, List.foldlM_cons]
      constructor
      · rintro ⟨policy, reads⟩
        obtain ⟨next, parsed, reads⟩ := bind_eq_ok.mp reads
        obtain ⟨key, parses, -⟩ := withPublisherKey_eq_ok.mp parsed
        exact ⟨⟨key, parses⟩, (ih next).mp ⟨policy, reads⟩⟩
      · rintro ⟨⟨key, parses⟩, others⟩
        obtain ⟨policy, reads⟩ := (ih _).mpr others
        exact ⟨policy, bind_eq_ok.mpr ⟨_, withPublisherKey_eq_ok.mpr ⟨key, parses, rfl⟩, reads⟩⟩
  constructor
  · rintro ⟨policy, reads⟩
    obtain ⟨keys, reads, -⟩ := bind_eq_ok.mp reads
    exact (keyed _ _).mp ⟨keys, reads⟩
  · intro parse
    obtain ⟨keys, reads⟩ := (keyed file.publishers
      (PublisherTrustPolicy.default.withSignatureRequirement
        (file.requireSignature.getD true))).mpr parse
    exact ⟨_, bind_eq_ok.mpr ⟨keys, reads, rfl⟩⟩

end Readings

/-! ### The fields of a merged policy -/

section Fields

variable {members : List (String × Value)} {base incoming merged : Value}

theorem mem_insertMember {key : String} {value : Value} {pin : String × Value}
    (sorted : members.Pairwise fun a b => a.1 < b.1) :
    pin ∈ Value.insertMember key value members ↔
      pin = (key, value) ∨ pin ∈ members ∧ pin.1 ≠ key := by
  induction members with
  | nil => simp [Value.insertMember]
  | cons member rest ih =>
    obtain ⟨k, v⟩ := member
    obtain ⟨least, sorted⟩ := List.pairwise_cons.mp sorted
    rw [Value.insertMember]
    by_cases same : key = k
    · subst same
      have others (found : pin ∈ rest) : pin.1 ≠ key := fun same =>
        String.lt_irrefl _ (same ▸ least pin found)
      rw [if_pos rfl, List.mem_cons, List.mem_cons]
      constructor
      · rintro (rfl | found)
        · exact .inl rfl
        · exact .inr ⟨.inr found, others found⟩
      · rintro (rfl | ⟨rfl | found, other⟩)
        · exact .inl rfl
        · exact absurd rfl other
        · exact .inr found
    · rw [if_neg same]
      by_cases before : key < k
      · rw [if_pos before, List.mem_cons]
        refine or_congr_right (iff_self_and.mpr fun found => ?_)
        rcases List.mem_cons.mp found with rfl | later
        · exact Ne.symm same
        · intro here
          exact String.lt_irrefl _ (String.lt_trans before (here ▸ least pin later))
      · rw [if_neg before, List.mem_cons, List.mem_cons, ih sorted]
        constructor
        · rintro (rfl | rfl | ⟨found, other⟩)
          · exact .inr ⟨.inl rfl, Ne.symm same⟩
          · exact .inl rfl
          · exact .inr ⟨.inr found, other⟩
        · rintro (rfl | ⟨rfl | found, other⟩)
          · exact .inr (.inl rfl)
          · exact .inl rfl
          · exact .inr (.inr ⟨found, other⟩)

theorem pairwise_insertMember {key : String} {value : Value}
    (sorted : members.Pairwise fun a b => a.1 < b.1) :
    (Value.insertMember key value members).Pairwise fun a b => a.1 < b.1 := by
  induction members with
  | nil => exact List.pairwise_singleton _ _
  | cons member rest ih =>
    obtain ⟨k, v⟩ := member
    obtain ⟨least, sortedRest⟩ := List.pairwise_cons.mp sorted
    rw [Value.insertMember]
    by_cases same : key = k
    · subst same
      rw [if_pos rfl]
      exact List.pairwise_cons.mpr ⟨least, sortedRest⟩
    · rw [if_neg same]
      by_cases before : key < k
      · rw [if_pos before]
        refine List.pairwise_cons.mpr ⟨fun pin found => ?_, sorted⟩
        rcases List.mem_cons.mp found with rfl | later
        · exact before
        · exact String.lt_trans before (least pin later)
      · rw [if_neg before]
        refine List.pairwise_cons.mpr ⟨fun pin found => ?_, ih sortedRest⟩
        rcases (mem_insertMember sortedRest).mp found with rfl | ⟨later, -⟩
        · by_contra above
          exact same (String.le_antisymm (String.not_lt.mp above) (String.not_lt.mp before))
        · exact least pin later

theorem mem_foldl_insertMember {pins : List (String × Value)} {pin : String × Value}
    (distinct : pins.Pairwise fun a b => a.1 < b.1)
    (sorted : members.Pairwise fun a b => a.1 < b.1) :
    pin ∈ pins.foldl (fun members pin => Value.insertMember pin.1 pin.2 members) members ↔
      pin ∈ pins ∨ pin ∈ members ∧ ∀ other ∈ pins, other.1 ≠ pin.1 := by
  induction pins generalizing members with
  | nil => simp
  | cons first rest ih =>
    obtain ⟨least, distinct⟩ := List.pairwise_cons.mp distinct
    rw [List.foldl_cons, ih distinct (pairwise_insertMember sorted), mem_insertMember sorted,
      List.mem_cons, List.forall_mem_cons]
    constructor
    · rintro (later | ⟨rfl | ⟨before, other⟩, others⟩)
      · exact .inl (.inr later)
      · exact .inl (.inl rfl)
      · exact .inr ⟨before, Ne.symm other, others⟩
    · rintro ((rfl | later) | ⟨before, other, others⟩)
      · exact .inr ⟨.inl rfl, fun other found same =>
          String.lt_irrefl _ (same ▸ least other found)⟩
      · exact .inl later
      · exact .inr ⟨.inr ⟨before, Ne.symm other⟩, others⟩

theorem mem_foldl_addRevoked_iff {item : Value} {items revoked : List Value} :
    item ∈ items.foldl addRevoked revoked ↔ item ∈ revoked ∨ item ∈ items := by
  induction items generalizing revoked with
  | nil => simp
  | cons first rest ih =>
    have added : item ∈ addRevoked revoked first ↔ item ∈ revoked ∨ item = first := by
      rw [addRevoked]
      split
      · next listed => exact iff_self_or.mpr fun same => same ▸ listed
      · rw [List.mem_append, List.mem_singleton]
    rw [List.foldl_cons, ih, added, List.mem_cons, or_assoc]

theorem exists_mergeRevoked {revoked : List Value}
    (isArray : arrayField "revoked_publishers" members = some revoked) :
    ∃ next, mergeRevoked incoming members = .ok next := by
  rw [mergeRevoked]
  cases (incoming.get "revoked_publishers").bind Value.asArray with
  | none => exact ⟨_, rfl⟩
  | some items => exact ⟨_, bind_eq_ok.mpr ⟨revoked, orBail_eq_ok.mpr isArray, rfl⟩⟩

theorem exists_mergePinned {pins : List (String × Value)}
    (isObject : objectField "pinned_plugin_publishers" members = some pins) :
    ∃ next, mergePinned incoming members = .ok next := by
  rw [mergePinned]
  cases (incoming.get "pinned_plugin_publishers").bind Value.asObject with
  | none => exact ⟨_, rfl⟩
  | some items => exact ⟨_, bind_eq_ok.mpr ⟨pins, orBail_eq_ok.mpr isObject, rfl⟩⟩

theorem exists_mergePolicies_iff {revoked : List Value} {pins : List (String × Value)}
    (isArray : arrayField "revoked_publishers" members = some revoked)
    (isObject : objectField "pinned_plugin_publishers" members = some pins) :
    (∃ merged, mergePolicies (.obj members) incoming = .ok merged) ↔
      (Value.lookup "publishers" members).bind Value.asArray ≠ none := by
  have kept (key : String) (other : key ≠ "require_signature") (value : Value) :
      Value.lookup key (Value.insertMember "require_signature" value members) =
        Value.lookup key members := Value.lookup_insertMember_of_ne _ _ other
  constructor
  · rintro ⟨merged, merges⟩
    obtain ⟨_, found, merges⟩ := bind_eq_ok.mp merges
    obtain rfl := Except.ok.inj found
    obtain ⟨_, publishes, -⟩ := bind_eq_ok.mp merges
    obtain ⟨pubs, listed, -⟩ := bind_eq_ok.mp publishes
    rw [kept _ (by decide), orBail_eq_ok] at listed
    rw [listed]
    exact Option.some_ne_none pubs
  · intro listed
    obtain ⟨pubs, listed⟩ := Option.ne_none_iff_exists'.mp listed
    have publishes : ∃ next, mergePublishers incoming (Value.insertMember "require_signature"
        (.bool (strictOf (.obj members) && strictOf incoming)) members) = .ok next :=
      ⟨_, bind_eq_ok.mpr ⟨pubs,
        orBail_eq_ok.mpr ((congrArg (·.bind Value.asArray) (kept _ (by decide) _)).trans listed),
        rfl⟩⟩
    obtain ⟨published, publishes⟩ := publishes
    have others := (mergePublishers_eq_ok publishes).2
    obtain ⟨withRevoked, revokes⟩ := @exists_mergeRevoked published incoming revoked (by
      rw [arrayField, others _ (by decide), kept _ (by decide)]
      exact isArray)
    obtain ⟨result, pinned⟩ := @exists_mergePinned withRevoked incoming pins (by
      rw [objectField, (mergeRevoked_eq_ok revokes).2 _ (by decide), others _ (by decide),
        kept _ (by decide)]
      exact isObject)
    exact ⟨.obj result, bind_eq_ok.mpr ⟨members, rfl, bind_eq_ok.mpr ⟨published, publishes,
      bind_eq_ok.mpr ⟨withRevoked, revokes, bind_eq_ok.mpr ⟨result, pinned, rfl⟩⟩⟩⟩⟩

end Fields

/-! ### The file that is read from a merged policy -/

section File

variable {base incoming merged : Value} {file theirFile : PublisherTrustPolicyFile}

/-- What a merge makes of two files. -/
structure MergedFile (file theirFile result : PublisherTrustPolicyFile) : Prop where
  requires : result.requireSignature =
    some (file.requireSignature.getD true && theirFile.requireSignature.getD true)
  publishers : result.publishers = theirFile.publishers.foldl
    (fun entries entry => upsertBy TrustedPublisherEntry.id entry entries) file.publishers
  revoked : ∀ entry, entry ∈ result.revokedPublishers ↔
    entry ∈ file.revokedPublishers ∨ entry ∈ theirFile.revokedPublishers
  pinned : ∀ pin, pin ∈ result.pinnedPluginPublishers ↔ pin ∈ theirFile.pinnedPluginPublishers ∨
    pin ∈ file.pinnedPluginPublishers ∧ ∀ other ∈ theirFile.pinnedPluginPublishers, other.1 ≠ pin.1

theorem stringAt_of_entryOfValue {pub : Value} {entry : TrustedPublisherEntry}
    (object : ∃ members, pub = .obj members) (reads : entryOfValue pub = some entry) :
    stringAt "id" pub = some entry.id := by
  obtain ⟨members, rfl⟩ := object
  cases named : stringAt "id" (.obj members) with
  | none => simp [entryOfValue, named] at reads
  | some id =>
    cases key : stringAt "ed25519_public_key" (.obj members) with
    | none => simp [entryOfValue, named, key] at reads
    | some text =>
      rw [entryOfValue, named, key] at reads
      · rw [← Option.some_inj.mp reads]
      · intro id key same
        cases same

theorem mapM_upsertPublisher {pub : Value} {entry : TrustedPublisherEntry} {pubs : List Value}
    {entries : List TrustedPublisherEntry} (named : stringAt "id" pub = some entry.id)
    (objects : ∀ pub ∈ pubs, ∃ members, pub = .obj members)
    (readsPub : entryOfValue pub = some entry) (reads : pubs.mapM entryOfValue = some entries) :
    (upsertPublisher pub pubs).mapM entryOfValue =
      some (upsertBy TrustedPublisherEntry.id entry entries) := by
  induction pubs generalizing entries with
  | nil =>
    cases reads
    rw [upsertPublisher, List.mapM_cons, readsPub]
    rfl
  | cons first rest ih =>
    obtain ⟨object, objects⟩ := List.forall_mem_cons.mp objects
    rw [List.mapM_cons] at reads
    obtain ⟨head, readsHead, reads⟩ := Option.bind_eq_some_iff.mp reads
    obtain ⟨others, readsOthers, made⟩ := Option.bind_eq_some_iff.mp reads
    cases made
    have same : stringAt "id" first = some (publisherId pub) ↔ head.id = entry.id := by
      rw [stringAt_of_entryOfValue object readsHead, publisherId, named, Option.getD_some,
        Option.some_inj]
    rw [upsertPublisher, upsertBy]
    by_cases here : head.id = entry.id
    · rw [if_pos (same.mpr here), if_pos here, List.mapM_cons, readsPub, readsOthers]
      rfl
    · rw [if_neg (mt same.mp here), if_neg here, List.mapM_cons, readsHead,
        ih objects readsOthers]
      rfl

theorem objects_upsertPublisher {pub : Value} {pubs : List Value}
    (object : ∃ members, pub = .obj members)
    (objects : ∀ pub ∈ pubs, ∃ members, pub = .obj members) :
    ∀ other ∈ upsertPublisher pub pubs, ∃ members, other = .obj members := by
  induction pubs with
  | nil => exact List.forall_mem_singleton.mpr object
  | cons first rest ih =>
    obtain ⟨isFirst, others⟩ := List.forall_mem_cons.mp objects
    rw [upsertPublisher]
    split
    · exact List.forall_mem_cons.mpr ⟨object, others⟩
    · exact List.forall_mem_cons.mpr ⟨isFirst, ih others⟩

theorem mapM_foldl_upsertPublisher {theirs pubs : List Value}
    {theirEntries entries : List TrustedPublisherEntry}
    (theirObjects : ∀ pub ∈ theirs, ∃ members, pub = .obj members)
    (objects : ∀ pub ∈ pubs, ∃ members, pub = .obj members)
    (readsTheirs : theirs.mapM entryOfValue = some theirEntries)
    (reads : pubs.mapM entryOfValue = some entries) :
    (theirs.foldl (fun pubs pub => upsertPublisher pub pubs) pubs).mapM entryOfValue =
      some (theirEntries.foldl
        (fun entries entry => upsertBy TrustedPublisherEntry.id entry entries) entries) := by
  induction theirs generalizing pubs entries theirEntries with
  | nil =>
    cases readsTheirs
    exact reads
  | cons pub rest ih =>
    obtain ⟨object, others⟩ := List.forall_mem_cons.mp theirObjects
    rw [List.mapM_cons] at readsTheirs
    obtain ⟨entry, readsPub, readsTheirs⟩ := Option.bind_eq_some_iff.mp readsTheirs
    obtain ⟨restEntries, readsRest, made⟩ := Option.bind_eq_some_iff.mp readsTheirs
    cases made
    rw [List.foldl_cons, List.foldl_cons]
    exact ih others (objects_upsertPublisher object objects) readsRest
      (mapM_upsertPublisher (stringAt_of_entryOfValue object readsPub) objects readsPub reads)

theorem asStr_eq_some (value : Value) (text : String) :
    value.asStr = some text ↔ value = .str text := by
  cases value with
  | str s => simp [Value.asStr]
  | null | bool _ | num _ | arr _ | obj _ => simp [Value.asStr]

def pinOfMember (member : String × Value) : Option (String × String) :=
  member.2.asStr.map (member.1, ·)

theorem pinOfMember_eq_some (member : String × Value) (pin : String × String) :
    pinOfMember member = some pin ↔ member = (pin.1, .str pin.2) := by
  obtain ⟨key, value⟩ := member
  obtain ⟨pluginId, publisher⟩ := pin
  simp [pinOfMember, asStr_eq_some, and_comm]

theorem forall_key_ne_iff {members : List (String × Value)} {pins : List (String × String)}
    (reads : members.mapM pinOfMember = some pins) {key : String} :
    (∀ member ∈ members, member.1 ≠ key) ↔ ∀ pin ∈ pins, pin.1 ≠ key := by
  constructor
  · intro others pin member
    exact others _ ((mem_mapM_iff pinOfMember_eq_some reads pin).mp member)
  · intro others member listed
    obtain ⟨pin, read⟩ := exists_mapM_iff.mp ⟨pins, reads⟩ member listed
    have same := (pinOfMember_eq_some member pin).mp read
    rw [same]
    exact others pin (mem_mapM_of_mem reads listed read)

theorem optionalField_of_getD {α : Type} {key : String} {read : Value → Option α} {missing : α}
    {default : Value} {members : List (String × Value)} {found : α}
    (reads : read ((Value.lookup key members).getD default) = some found)
    (defaults : read default = some missing) :
    optionalField key read missing (.obj members) = some found := by
  rw [optionalField, Value.get]
  cases listed : Value.lookup key members with
  | none =>
    rw [listed, Option.getD_none, defaults] at reads
    exact reads
  | some value =>
    rw [listed] at reads
    exact reads

theorem fileOfValue_of_fields {members : List (String × Value)} {strict : Bool}
    {pubs revoked : List Value} {pins : List (String × Value)} {result : PublisherTrustPolicyFile}
    (requires : Value.lookup "require_signature" members = some (.bool strict))
    (requirement : result.requireSignature = some strict)
    (publishers : arrayField "publishers" members = some pubs)
    (readsPubs : pubs.mapM entryOfValue = some result.publishers)
    (revocations : arrayField "revoked_publishers" members = some revoked)
    (readsRevoked : revoked.mapM Value.asStr = some result.revokedPublishers)
    (pinned : objectField "pinned_plugin_publishers" members = some pins)
    (readsPins : pins.mapM pinOfMember = some result.pinnedPluginPublishers) :
    fileOfValue (.obj members) = some result := by
  obtain ⟨_, _, _, _⟩ := result
  obtain rfl := requirement
  refine Option.bind_eq_some_iff.mpr ⟨some strict, @optionalField_of_getD _ _ _ _ .null _ _ ?_ rfl,
    Option.bind_eq_some_iff.mpr ⟨_, @optionalField_of_getD _ _ _ _ (.arr []) _ _ ?_ rfl,
      Option.bind_eq_some_iff.mpr ⟨_, @optionalField_of_getD _ _ _ _ (.arr []) _ _ ?_ rfl,
        Option.bind_eq_some_iff.mpr ⟨_, @optionalField_of_getD _ _ _ _ (.obj []) _ _ ?_ rfl,
          rfl⟩⟩⟩⟩
  · rw [requires]
    rfl
  · exact Option.bind_eq_some_iff.mpr ⟨pubs, publishers, readsPubs⟩
  · exact Option.bind_eq_some_iff.mpr ⟨revoked, revocations, readsRevoked⟩
  · exact Option.bind_eq_some_iff.mpr ⟨pins, pinned, readsPins⟩

theorem incomingItems_obj {key : String} {members : List (String × Value)} {items : List Value}
    (isArray : arrayField key members = some items) : incomingItems key (.obj members) = items := by
  rw [incomingItems, Value.get]
  rw [arrayField] at isArray
  cases listed : Value.lookup key members with
  | none =>
    rw [listed] at isArray
    exact Option.some_inj.mp isArray
  | some value =>
    rw [listed, Option.getD_some] at isArray
    rw [Option.bind_some, isArray, Option.getD_some]

theorem incomingPins_obj {members pins : List (String × Value)}
    (isObject : objectField "pinned_plugin_publishers" members = some pins) :
    incomingPins (.obj members) = pins := by
  rw [incomingPins, Value.get]
  rw [objectField] at isObject
  cases listed : Value.lookup "pinned_plugin_publishers" members with
  | none =>
    rw [listed] at isObject
    exact Option.some_inj.mp isObject
  | some value =>
    rw [listed, Option.getD_some] at isObject
    rw [Option.bind_some, isObject, Option.getD_some]

theorem exists_fileOfMerge (merges : mergePolicies base incoming = .ok merged)
    (object : ∃ members, incoming = .obj members) (document : Document base)
    (theirDocument : Document incoming) (readsBase : fileOfValue base = some file)
    (readsTheirs : fileOfValue incoming = some theirFile) :
    ∃ result, fileOfValue merged = some result ∧ MergedFile file theirFile result := by
  obtain ⟨theirMembers, rfl⟩ := object
  obtain ⟨members, result, rfl, rfl, requires, publishers, revoked, pinned⟩ :=
    mergePolicies_eq_ok merges
  obtain ⟨fileRequires, ⟨pubs, isPubs, readsPubs⟩, ⟨revocations, isRevoked, readsRevoked⟩,
    pins, isPins, readsPins⟩ := fileOfValue_obj readsBase
  obtain ⟨theirRequires, ⟨theirPubs, areTheirPubs, readsTheirPubs⟩,
    ⟨theirRevoked, areTheirRevoked, readsTheirRevoked⟩, theirPins, areTheirPins, readsTheirPins⟩ :=
      fileOfValue_obj readsTheirs
  rw [isPubs, Option.map_some, incomingItems_obj areTheirPubs] at publishers
  rw [isRevoked, Option.map_some, incomingItems_obj areTheirRevoked] at revoked
  rw [isPins, Option.map_some, incomingPins_obj areTheirPins] at pinned
  have objects := document.publishers
  have theirObjects := theirDocument.publishers
  have sorted := document.pins
  have theirSorted := theirDocument.pins
  rw [incomingItems_obj isPubs] at objects
  rw [incomingItems_obj areTheirPubs] at theirObjects
  rw [incomingPins_obj isPins] at sorted
  rw [incomingPins_obj areTheirPins] at theirSorted
  -- the revocations and the pins can be read because those of the two policies can
  obtain ⟨newRevoked, readsNewRevoked⟩ := exists_mapM_iff.mpr fun item member => by
    rcases mem_foldl_addRevoked_iff.mp member with before | theirs
    · exact exists_mapM_iff.mp ⟨_, readsRevoked⟩ item before
    · exact exists_mapM_iff.mp ⟨_, readsTheirRevoked⟩ item theirs
  obtain ⟨newPins, readsNewPins⟩ := exists_mapM_iff.mpr fun pin member => by
    rcases (mem_foldl_insertMember theirSorted sorted).mp member with theirs | ⟨before, -⟩
    · exact exists_mapM_iff.mp ⟨_, readsTheirPins⟩ pin theirs
    · exact exists_mapM_iff.mp ⟨_, readsPins⟩ pin before
  refine ⟨⟨some (strictOf (.obj members) && strictOf (.obj theirMembers)), _, newRevoked, newPins⟩,
    fileOfValue_of_fields requires rfl publishers
      (mapM_foldl_upsertPublisher theirObjects objects readsTheirPubs readsPubs)
      revoked readsNewRevoked pinned readsNewPins, ⟨?_, rfl, fun entry => ?_, fun pin => ?_⟩⟩
  · rw [fileRequires, theirRequires]
  · rw [mem_mapM_iff asStr_eq_some readsNewRevoked, mem_mapM_iff asStr_eq_some readsRevoked,
      mem_mapM_iff asStr_eq_some readsTheirRevoked, mem_foldl_addRevoked_iff]
  · rw [mem_mapM_iff pinOfMember_eq_some readsNewPins, mem_mapM_iff pinOfMember_eq_some readsPins,
      mem_mapM_iff pinOfMember_eq_some readsTheirPins, mem_foldl_insertMember theirSorted sorted,
      forall_key_ne_iff readsTheirPins]

end File

/-! ### What the merge means -/

section Meaning

variable {base incoming merged : Value} {file theirFile result : PublisherTrustPolicyFile}
  {before theirs after : PublisherTrustPolicy κ}

/-- Two policies, and a policy that is read from the result of their merge. -/
structure MergeRead (library : SignatureLibrary κ ς) (base incoming merged : Value)
    (file theirFile result : PublisherTrustPolicyFile)
    (before theirs after : PublisherTrustPolicy κ) : Prop where
  made : MergedFile file theirFile result
  readsFile : fileOfValue base = some file
  readsTheirFile : fileOfValue incoming = some theirFile
  readsResult : fileOfValue merged = some result
  reads : Reads library base before
  readsTheirs : Reads library incoming theirs
  readsMerged : Reads library merged after

theorem pins_merged (made : MergedFile file theirFile result) {pluginId publisher : String} :
    Pins result pluginId publisher ↔
      Pins theirFile pluginId publisher ∨ PinsApart file theirFile pluginId publisher := by
  constructor
  · rintro ⟨pin, member, pins, same⟩
    rcases (made.pinned pin).mp member with theirs | ⟨listed, apart⟩
    · exact .inl ⟨pin, theirs, pins, same⟩
    · exact .inr ⟨pin, listed, pins, same, apart⟩
  · rintro (⟨pin, member, pins, same⟩ | ⟨pin, member, pins, same, apart⟩)
    · exact ⟨pin, (made.pinned pin).mpr (.inl member), pins, same⟩
    · exact ⟨pin, (made.pinned pin).mpr (.inr ⟨member, apart⟩), pins, same⟩

theorem getLast?_drop_one {α : Type} {items : List α} (several : ¬ items.length ≤ 1) :
    (items.drop 1).getLast? = items.getLast? := by
  rw [List.getLast?_drop, if_neg several]

/-- The last entry of a publisher is that of the downloaded policy, unless the local one has
several. -/
theorem trusted_merged
    (both : MergeRead library base incoming merged file theirFile result before theirs after)
    (publisher : String) :
    after.trustedPublishers publisher =
      if (∃ entry ∈ theirFile.publishers, entry.id = publisher) ∧
          (file.publishers.filter (·.id = publisher)).length ≤ 1 then
        theirs.trustedPublishers publisher
      else before.trustedPublishers publisher := by
  obtain ⟨_, -, isBefore⟩ := readOf_reads both.readsFile both.reads
  obtain ⟨_, -, areTheirs⟩ := readOf_reads both.readsTheirFile both.readsTheirs
  obtain ⟨_, -, isAfter⟩ := readOf_reads both.readsResult both.readsMerged
  rw [isAfter.trusted, isBefore.trusted, areTheirs.trusted]
  simp only [both.made.publishers, filter_foldl_upsertBy]
  cases last : (theirFile.publishers.filter fun entry => entry.id = publisher).getLast? with
  | none =>
    have unlisted : ¬ ∃ entry ∈ theirFile.publishers, entry.id = publisher := by
      rintro ⟨entry, member, named⟩
      have empty := List.filter_eq_nil_iff.mp (List.getLast?_eq_none_iff.mp last)
      exact empty entry member (decide_eq_true named)
    rw [if_neg fun listed => unlisted listed.1]
  | some entry =>
    obtain ⟨member, named⟩ := List.mem_filter.mp (List.mem_of_getLast? last)
    have listed : ∃ entry ∈ theirFile.publishers, entry.id = publisher :=
      ⟨entry, member, of_decide_eq_true named⟩
    by_cases once : (file.publishers.filter fun entry => entry.id = publisher).length ≤ 1
    · rw [if_pos ⟨listed, once⟩, List.drop_eq_nil_of_le once]
      rfl
    · rw [if_neg fun found => once found.2]
      have nonempty : (file.publishers.filter fun entry => entry.id = publisher).drop 1 ≠ [] := by
        rw [ne_eq, List.drop_eq_nil_iff]
        exact once
      simp only [List.getLast?_cons_of_ne_nil nonempty, getLast?_drop_one once]

theorem exists_trusted (readsFile : fileOfValue base = some file)
    (reads : Reads library base before) {entry : TrustedPublisherEntry}
    (member : entry ∈ file.publishers) :
    ∃ key, before.trustedPublishers entry.id = some key := by
  obtain ⟨_, pins, isFile, -, isPolicy⟩ := reads
  obtain rfl := Option.some_inj.mp (readsFile.symm.trans isFile)
  have parses := exists_ofFile_iff.mp ⟨_, isPolicy⟩
  rw [(readOf_ofFile isPolicy).trusted]
  cases last : (file.publishers.filter fun other => other.id = entry.id).getLast? with
  | none =>
    have empty := List.filter_eq_nil_iff.mp (List.getLast?_eq_none_iff.mp last)
    exact absurd (decide_eq_true rfl) (empty entry member)
  | some other =>
    obtain ⟨listed, -⟩ := List.mem_filter.mp (List.mem_of_getLast? last)
    obtain ⟨key, parsed⟩ := parses other listed
    exact ⟨key, by simp only [parsed, Except.toOption]⟩

theorem trusted_eq_none (readsFile : fileOfValue base = some file)
    (reads : Reads library base before) {publisher : String}
    (unlisted : ¬ ∃ entry ∈ file.publishers, entry.id = publisher) :
    before.trustedPublishers publisher = none := by
  obtain ⟨_, -, isBefore⟩ := readOf_reads readsFile reads
  have empty : (file.publishers.filter fun entry => entry.id = publisher) = [] :=
    List.filter_eq_nil_iff.mpr fun entry member named =>
      unlisted ⟨entry, member, of_decide_eq_true named⟩
  rw [isBefore.trusted]
  simp only [empty, List.getLast?_nil]

theorem exists_reads_merged (made : MergedFile file theirFile result)
    (readsFile : fileOfValue base = some file)
    (readsTheirFile : fileOfValue incoming = some theirFile)
    (reads : Reads library base before) (readsTheirs : Reads library incoming theirs) :
    ∃ policy, ofFile library result = .ok policy := by
  obtain ⟨_, pins, isFile, -, isPolicy⟩ := reads
  obtain rfl := Option.some_inj.mp (readsFile.symm.trans isFile)
  obtain ⟨_, theirPins, areTheirs, -, areTheirPolicy⟩ := readsTheirs
  obtain rfl := Option.some_inj.mp (readsTheirFile.symm.trans areTheirs)
  refine exists_ofFile_iff.mpr fun entry member => ?_
  rw [made.publishers] at member
  rcases mem_of_mem_foldl_upsertBy member with theirs | listed
  · exact exists_ofFile_iff.mp ⟨_, areTheirPolicy⟩ entry theirs
  · exact exists_ofFile_iff.mp ⟨_, isPolicy⟩ entry listed

theorem trusted_merged_iff
    (both : MergeRead library base incoming merged file theirFile result before theirs after) :
    (∀ publisher, after.trustedPublishers publisher =
      (theirs.trustedPublishers publisher).or (before.trustedPublishers publisher)) ↔
      ∀ entry ∈ theirFile.publishers, (file.publishers.filter (·.id = entry.id)).length ≤ 1 ∨
        before.trustedPublishers entry.id = theirs.trustedPublishers entry.id := by
  have merges := trusted_merged both
  constructor
  · intro combines entry member
    by_cases once : (file.publishers.filter (·.id = entry.id)).length ≤ 1
    · exact .inl once
    · obtain ⟨key, trusted⟩ := exists_trusted both.readsTheirFile both.readsTheirs member
      have same := combines entry.id
      rw [merges, if_neg fun found => once found.2, trusted, Option.some_or] at same
      exact .inr (same.trans trusted.symm)
  · intro clean publisher
    rw [merges]
    by_cases listed : ∃ entry ∈ theirFile.publishers, entry.id = publisher
    · obtain ⟨entry, member, rfl⟩ := listed
      obtain ⟨key, trusted⟩ := exists_trusted both.readsTheirFile both.readsTheirs member
      rw [trusted, Option.some_or]
      split
      · rfl
      · next several =>
        rcases clean entry member with once | same
        · exact absurd ⟨⟨entry, member, rfl⟩, once⟩ several
        · exact same.trans trusted
    · rw [if_neg fun found => listed found.1,
        trusted_eq_none both.readsTheirFile both.readsTheirs listed, Option.none_or]

theorem requires_merged
    (both : MergeRead library base incoming merged file theirFile result before theirs after) :
    after.requireSignature = (before.requireSignature && theirs.requireSignature) := by
  obtain ⟨_, -, isBefore⟩ := readOf_reads both.readsFile both.reads
  obtain ⟨_, -, areTheirs⟩ := readOf_reads both.readsTheirFile both.readsTheirs
  obtain ⟨_, -, isAfter⟩ := readOf_reads both.readsResult both.readsMerged
  rw [isAfter.requires, isBefore.requires, areTheirs.requires]
  simp only [both.made.requires, Option.getD_some]

theorem revoked_merged
    (both : MergeRead library base incoming merged file theirFile result before theirs after) :
    after.revokedPublishers = before.revokedPublishers ∪ theirs.revokedPublishers := by
  obtain ⟨_, -, isBefore⟩ := readOf_reads both.readsFile both.reads
  obtain ⟨_, -, areTheirs⟩ := readOf_reads both.readsTheirFile both.readsTheirs
  obtain ⟨_, -, isAfter⟩ := readOf_reads both.readsResult both.readsMerged
  ext publisher
  rw [Finset.mem_union, isAfter.revoked, isBefore.revoked, areTheirs.revoked]
  simp only [both.made.revoked, or_and_right, exists_or]

theorem pinned_merged
    (both : MergeRead library base incoming merged file theirFile result before theirs after)
    (spelled : ∀ pluginId publisher, (∃ other, Pins theirFile pluginId other) →
      PinsApart file theirFile pluginId publisher → Pins theirFile pluginId publisher)
    (kept : ∀ pluginId, (∃ publisher, Pins file pluginId publisher) →
      (∃ other, Pins theirFile pluginId other) ∨
        ∃ publisher, PinsApart file theirFile pluginId publisher)
    (before_eq : ∀ pluginId publisher, Pins file pluginId publisher →
      after.pinnedPluginPublishers pluginId = some publisher →
        before.pinnedPluginPublishers pluginId = some publisher)
    (theirs_eq : ∀ pluginId publisher, Pins theirFile pluginId publisher →
      after.pinnedPluginPublishers pluginId = some publisher →
        theirs.pinnedPluginPublishers pluginId = some publisher) (pluginId : String) :
    after.pinnedPluginPublishers pluginId =
      (theirs.pinnedPluginPublishers pluginId).or (before.pinnedPluginPublishers pluginId) := by
  have pinned {publisher : String} (pins : Pins result pluginId publisher) :
      ∃ other, after.pinnedPluginPublishers pluginId = some other :=
    exists_pinned_of_pins both.readsResult both.readsMerged pins
  -- the other file's pins win; without one, an own pin that is kept apart
  by_cases named : ∃ other, Pins theirFile pluginId other
  · obtain ⟨other, pins⟩ := named
    obtain ⟨publisher, isAfter⟩ := pinned ((pins_merged both.made).mpr (.inl pins))
    have theirPins : Pins theirFile pluginId publisher := by
      rcases (pins_merged both.made).mp
        (pins_of_reads both.readsResult both.readsMerged isAfter) with theirs | apart
      · exact theirs
      · exact spelled pluginId publisher ⟨other, pins⟩ apart
    rw [theirs_eq pluginId publisher theirPins isAfter, isAfter, Option.some_or]
  · have unpinned : theirs.pinnedPluginPublishers pluginId = none :=
      Option.eq_none_iff_forall_ne_some.mpr fun publisher isPinned =>
        named ⟨publisher, pins_of_reads both.readsTheirFile both.readsTheirs isPinned⟩
    rw [unpinned, Option.none_or]
    cases isAfter : after.pinnedPluginPublishers pluginId with
    | some publisher =>
      rcases (pins_merged both.made).mp
        (pins_of_reads both.readsResult both.readsMerged isAfter) with
        theirs | ⟨pin, member, pins, same, -⟩
      · exact absurd ⟨publisher, theirs⟩ named
      · exact (before_eq pluginId publisher ⟨pin, member, pins, same⟩ isAfter).symm
    | none =>
      refine (Option.eq_none_iff_forall_ne_some.mpr fun publisher isPinned => ?_).symm
      rcases kept pluginId ⟨publisher, pins_of_reads both.readsFile both.reads isPinned⟩ with
        theirs | ⟨other, apart⟩
      · exact named theirs
      · obtain ⟨_, found⟩ := pinned ((pins_merged both.made).mpr (.inr apart))
        rw [isAfter] at found
        cases found

end Meaning

section Law

variable {base incoming : Value} {file theirFile : PublisherTrustPolicyFile}
  {before theirs : PublisherTrustPolicy κ}

theorem mergeMeans_of_mergesCleanly (object : ∃ members, incoming = .obj members)
    (document : Document base) (theirDocument : Document incoming)
    (readsFile : fileOfValue base = some file)
    (readsTheirFile : fileOfValue incoming = some theirFile) (reads : Reads library base before)
    (readsTheirs : Reads library incoming theirs)
    (clean : MergesCleanly base file theirFile before theirs) :
    MergeMeans library base incoming := by
  have isObject : ∃ members, base = .obj members := by
    cases base with
    | obj members => exact ⟨members, rfl⟩
    | null | bool _ | num _ | str _ | arr _ => exact absurd rfl clean.listed
  obtain ⟨members, rfl⟩ := isObject
  obtain ⟨-, -, ⟨_, isArray, -⟩, _, hasPins, -⟩ := fileOfValue_obj readsFile
  obtain ⟨merged, merges⟩ := (exists_mergePolicies_iff isArray hasPins).mpr clean.listed
  obtain ⟨result, readsResult, made⟩ :=
    exists_fileOfMerge merges object document theirDocument readsFile readsTheirFile
  obtain ⟨after, isAfter⟩ := exists_reads_merged made readsFile readsTheirFile reads readsTheirs
  refine ⟨merged, merges, ⟨after, result, _, readsResult, .refl _, isAfter⟩,
    fun after readsMerged => ?_⟩
  -- the two policies are read with the pins that the result is read with
  obtain ⟨before', reads', chosen⟩ :=
    exists_reading readsFile reads after.pinnedPluginPublishers
  obtain ⟨theirs', readsTheirs', theirChosen⟩ :=
    exists_reading readsTheirFile readsTheirs after.pinnedPluginPublishers
  have both : MergeRead library (.obj members) incoming merged file theirFile result before'
      theirs' after :=
    ⟨made, readsFile, readsTheirFile, readsResult, reads', readsTheirs', readsMerged⟩
  refine ⟨before', theirs', reads', readsTheirs', requires_merged both,
    (trusted_merged_iff both).mpr ?_, revoked_merged both,
    pinned_merged both clean.spelled clean.kept chosen theirChosen⟩
  intro entry member
  rw [trusted_of_reads readsFile reads' reads,
    trusted_of_reads readsTheirFile readsTheirs' readsTheirs]
  exact clean.publishers entry member

theorem mergesCleanly_of_mergeMeans (object : ∃ members, incoming = .obj members)
    (document : Document base) (theirDocument : Document incoming)
    (readsFile : fileOfValue base = some file)
    (readsTheirFile : fileOfValue incoming = some theirFile) (reads : Reads library base before)
    (readsTheirs : Reads library incoming theirs) (means : MergeMeans library base incoming) :
    MergesCleanly base file theirFile before theirs := by
  obtain ⟨merged, merges, ⟨some, readsSome⟩, combines⟩ := means
  obtain ⟨result, readsResult, made⟩ :=
    exists_fileOfMerge merges object document theirDocument readsFile readsTheirFile
  refine ⟨?_, ?_, fun pluginId publisher ⟨_, pins⟩ apart => ?_, fun pluginId ⟨_, pins⟩ => ?_⟩
  · obtain ⟨members, -, rfl, -⟩ := mergePolicies_eq_ok merges
    obtain ⟨-, -, ⟨_, isArray, -⟩, _, hasPins, -⟩ := fileOfValue_obj readsFile
    exact (exists_mergePolicies_iff isArray hasPins).mp ⟨merged, merges⟩
  · obtain ⟨before', theirs', reads', readsTheirs', combine⟩ := combines some readsSome
    rw [trusted_of_reads readsFile reads reads',
      trusted_of_reads readsTheirFile readsTheirs readsTheirs']
    exact (trusted_merged_iff ⟨made, readsFile, readsTheirFile, readsResult, reads', readsTheirs',
      readsSome⟩).mp combine.trusted
  · -- the result can be read with the pin that only the local policy spells so
    obtain ⟨after, readsMerged, chosen⟩ :=
      exists_reading readsResult readsSome fun _ => .some publisher
    obtain ⟨before', theirs', reads', readsTheirs', combine⟩ := combines after readsMerged
    obtain ⟨other, isPinned⟩ := exists_pinned_of_pins readsTheirFile readsTheirs' pins
    have same := combine.pinned pluginId
    rw [chosen pluginId publisher ((pins_merged made).mpr (.inr apart)) rfl, isPinned,
      Option.some_or] at same
    exact Option.some_inj.mp same ▸ pins_of_reads readsTheirFile readsTheirs' isPinned
  · by_cases named : ∃ other, Pins theirFile pluginId other
    · exact .inl named
    · obtain ⟨before', theirs', reads', readsTheirs', combine⟩ := combines some readsSome
      obtain ⟨publisher, isPinned⟩ := exists_pinned_of_pins readsFile reads' pins
      have unpinned : theirs'.pinnedPluginPublishers pluginId = none :=
        Option.eq_none_iff_forall_ne_some.mpr fun other isTheirs =>
          named ⟨other, pins_of_reads readsTheirFile readsTheirs' isTheirs⟩
      have isAfter := combine.pinned pluginId
      rw [unpinned, Option.none_or, isPinned] at isAfter
      rcases (pins_merged made).mp (pins_of_reads readsResult readsSome isAfter) with theirs | apart
      · exact absurd ⟨publisher, theirs⟩ named
      · exact .inr ⟨publisher, apart⟩

end Law

/-- **Merged trust policies.** For two accepted policies that are written as objects, the merge
succeeds and the result combines them exactly if they do not stand in each other's way. -/
theorem trust_merge_means (library : SignatureLibrary κ ς) (base incoming : Value)
    (file theirFile : PublisherTrustPolicyFile) (before theirs : PublisherTrustPolicy κ)
    (object : ∃ members, incoming = .obj members)
    (document : Document base) (theirDocument : Document incoming)
    (readsFile : fileOfValue base = some file)
    (readsTheirFile : fileOfValue incoming = some theirFile) (reads : Reads library base before)
    (readsTheirs : Reads library incoming theirs) :
    MergeMeans library base incoming ↔ MergesCleanly base file theirFile before theirs :=
  ⟨mergesCleanly_of_mergeMeans object document theirDocument readsFile readsTheirFile reads
      readsTheirs,
    mergeMeans_of_mergesCleanly object document theirDocument readsFile readsTheirFile reads
      readsTheirs⟩

/-! ### Keys of one publisher -/

/-- A policy with keys of `acme`. -/
def acmeTrust (keys : List Char) : Value :=
  trustValue [] (keys.map fun c => acmeEntry (keyText c)) []

def acmeTrustFile (keys : List Char) : PublisherTrustPolicyFile :=
  ⟨some true, keys.map fun c => ⟨"acme", keyText c⟩, [], []⟩

theorem document_acmeTrust (keys : List Char) : Document (acmeTrust keys) := by
  refine ⟨fun pub member => ?_, .nil⟩
  obtain ⟨c, -, rfl⟩ := List.mem_map.mp member
  exact ⟨_, rfl⟩

/-- A key replaces the one of the local policy. -/
theorem new_key_replaces : MergeMeans tightLibrary (acmeTrust ['k']) (acmeTrust ['j']) := by
  obtain ⟨before, reads, _⟩ := @exists_reads _ _ tightLibrary (acmeTrust ['k'])
    (acmeTrustFile ['k']) (by decide +kernel) (by decide +kernel)
  obtain ⟨theirs, readsTheirs, _⟩ := @exists_reads _ _ tightLibrary (acmeTrust ['j'])
    (acmeTrustFile ['j']) (by decide +kernel) (by decide +kernel)
  refine (trust_merge_means tightLibrary (acmeTrust ['k']) (acmeTrust ['j']) (acmeTrustFile ['k'])
    (acmeTrustFile ['j']) before theirs ⟨_, rfl⟩ (document_acmeTrust _) (document_acmeTrust _)
    (by decide +kernel) (by decide +kernel) reads readsTheirs).mpr ⟨nofun, ?_, ?_, ?_⟩
  · exact fun entry _ => .inl (List.length_filter_le _ _)
  · rintro pluginId publisher ⟨other, pin, member, -⟩
    cases member
  · rintro pluginId ⟨publisher, pin, member, -⟩
    cases member

/-- If the local policy lists a publisher twice, a merge leaves its last key. -/
theorem repeated_publisher_keeps_key :
    ¬ ∀ (base incoming : Value) (before theirs : PublisherTrustPolicy (List UInt8)),
      Reads tightLibrary base before → Reads tightLibrary incoming theirs →
        MergeMeans tightLibrary base incoming := by
  intro law
  obtain ⟨before, reads, isBefore⟩ := @exists_reads _ _ tightLibrary (acmeTrust ['k', 'i'])
    (acmeTrustFile ['k', 'i']) (by decide +kernel) (by decide +kernel)
  obtain ⟨theirs, readsTheirs, areTheirs⟩ := @exists_reads _ _ tightLibrary (acmeTrust ['j'])
    (acmeTrustFile ['j']) (by decide +kernel) (by decide +kernel)
  have readsFile : fileOfValue (acmeTrust ['k', 'i']) = some (acmeTrustFile ['k', 'i']) := by
    decide +kernel
  have readsTheirFile : fileOfValue (acmeTrust ['j']) = some (acmeTrustFile ['j']) := by
    decide +kernel
  have clean := mergesCleanly_of_mergeMeans ⟨_, rfl⟩ (document_acmeTrust _) (document_acmeTrust _)
    readsFile readsTheirFile reads readsTheirs (law _ _ _ _ reads readsTheirs)
  rcases clean.publishers ⟨"acme", keyText 'j'⟩ (List.mem_singleton.mpr rfl) with once | same
  · revert once
    decide +kernel
  · rw [isBefore.trusted, areTheirs.trusted] at same
    revert same
    decide +kernel

end KelvinClaw.Cli
