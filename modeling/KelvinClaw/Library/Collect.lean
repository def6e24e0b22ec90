import Mathlib.Data.List.Sort

/-!
# Collecting under different keys

Items are asked in turn for a value under a key. One that fails ends the collection, and so does a
key that was given before. An item need not give a value.

Items that differ in a key can be sorted by it, so that the order they came in does not matter.
-/

namespace Systems

variable {ι κ α ε : Type*}

/-! ### Sorting by a key -/

section ByKey

variable [LinearOrder κ] (key : ι → κ)

def sortByKey (items : List ι) : List ι := items.mergeSort fun item other => key item ≤ key other

theorem sortByKey_perm (items : List ι) : (sortByKey key items).Perm items :=
  List.mergeSort_perm _ _

theorem pairwise_sortByKey (items : List ι) :
    (sortByKey key items).Pairwise fun item other => key item ≤ key other := by
  have sorted : (sortByKey key items).Pairwise fun item other => decide (key item ≤ key other) :=
    List.pairwise_mergeSort (fun first second third below above => decide_eq_true
      ((of_decide_eq_true below).trans (of_decide_eq_true above)))
      (fun first second => by simpa using le_total (key first) (key second)) items
  exact sorted.imp of_decide_eq_true

/-- Items of different keys are sorted into the same order wherever they came. -/
theorem sortByKey_eq_of_perm {items others : List ι} (distinct : (items.map key).Nodup)
    (same : items.Perm others) : sortByKey key items = sortByKey key others := by
  have perm : (sortByKey key items).Perm (sortByKey key others) :=
    (sortByKey_perm key items).trans (same.trans (sortByKey_perm key others).symm)
  refine List.Perm.eq_of_pairwise ?_ (pairwise_sortByKey key items) (pairwise_sortByKey key others)
    perm
  intro item other member member' below above
  have member := (sortByKey_perm key items).mem_iff.mp member
  have member' := same.mem_iff.mpr ((sortByKey_perm key others).mem_iff.mp member')
  exact List.inj_on_of_nodup_map distinct member member' (below.antisymm above)

end ByKey

/-! ### Collecting -/

section Collect

variable [DecidableEq κ] (offer : ι → Except ε (Option (κ × α))) (duplicate : κ → ε)

def keep (kept : List (κ × α)) : Option (κ × α) → Except ε (List (κ × α))
  | none => .ok kept
  | some (key, value) =>
    if key ∈ kept.map Prod.fst then .error (duplicate key) else .ok (kept ++ [(key, value)])

/-- The values of the items, under their keys. -/
def collectFrom (kept : List (κ × α)) : List ι → Except ε (List (κ × α))
  | [] => .ok kept
  | item :: rest => do
    let offered ← offer item
    let kept ← keep duplicate kept offered
    collectFrom kept rest

/-- What an item offers, nothing if it fails. -/
def offered (item : ι) : Option (κ × α) :=
  match offer item with
  | .ok value => value
  | .error _ => none

def valueAt (kept : List (κ × α)) (key : κ) : Option α :=
  (kept.find? fun entry => entry.1 = key).map Prod.snd

variable {offer duplicate} {kept kept' : List (κ × α)} {items : List ι}

theorem keep_eq_ok {value : Option (κ × α)} (distinct : (kept.map Prod.fst).Nodup) :
    keep duplicate kept value = .ok kept' ↔
      kept' = kept ++ value.toList ∧ (kept'.map Prod.fst).Nodup := by
  unfold keep
  split
  · constructor
    · intro same
      obtain rfl := Except.ok.inj same
      exact ⟨(List.append_nil _).symm, distinct⟩
    · rintro ⟨rfl, -⟩
      rw [Option.toList_none, List.append_nil]
  · next key value =>
    have nodup_iff : ((kept ++ [(key, value)]).map Prod.fst).Nodup ↔ key ∉ kept.map Prod.fst := by
      rw [List.map_append, List.nodup_append]
      simp only [List.map_cons, List.map_nil, List.mem_singleton, forall_eq]
      constructor
      · rintro ⟨-, -, apart⟩ member
        exact apart _ member rfl
      · intro new
        exact ⟨distinct, List.nodup_singleton _, fun other member same => new (same ▸ member)⟩
    split_ifs with known
    · constructor
      · exact nofun
      · rintro ⟨rfl, nodup⟩
        exact absurd known (nodup_iff.mp nodup)
    · constructor
      · intro same
        obtain rfl := Except.ok.inj same
        exact ⟨rfl, nodup_iff.mpr known⟩
      · rintro ⟨rfl, -⟩
        rfl

/-- The collection succeeds exactly when no item fails and all keys are different, and it keeps
what the items offer. -/
theorem collectFrom_eq_ok (distinct : (kept.map Prod.fst).Nodup) :
    collectFrom offer duplicate kept items = .ok kept' ↔
      (∀ item ∈ items, ∃ value, offer item = .ok value) ∧
        kept' = kept ++ items.filterMap (offered offer) ∧ (kept'.map Prod.fst).Nodup := by
  induction items generalizing kept with
  | nil =>
    simp only [collectFrom, Except.ok.injEq, List.filterMap_nil, List.append_nil,
      List.not_mem_nil, false_implies, implies_true, true_and]
    constructor
    · rintro rfl
      exact ⟨rfl, distinct⟩
    · rintro ⟨rfl, -⟩
      rfl
  | cons item rest ih =>
    rw [collectFrom, List.forall_mem_cons]
    cases found : offer item with
    | error failure =>
      refine ⟨nofun, ?_⟩
      rintro ⟨⟨⟨value, ok⟩, -⟩, -⟩
      exact nomatch ok
    | ok value =>
      have here : offered offer item = value := by rw [offered, found]
      have next : (item :: rest).filterMap (offered offer) =
          value.toList ++ rest.filterMap (offered offer) := by
        rw [List.filterMap_cons, here]
        cases value <;> rfl
      rw [next, ← List.append_assoc]
      change (keep duplicate kept value >>= fun kept => collectFrom offer duplicate kept rest) =
        .ok kept' ↔ _
      cases kept_eq : keep duplicate kept value with
      | error failure =>
        refine ⟨nofun, ?_⟩
        rintro ⟨-, rfl, nodup⟩
        -- the keys so far are different, so that the value is kept
        have early : ((kept ++ value.toList).map Prod.fst).Nodup := by
          rw [List.map_append] at nodup
          exact nodup.of_append_left
        rw [(keep_eq_ok distinct).mpr ⟨rfl, early⟩] at kept_eq
        exact nomatch kept_eq
      | ok middle =>
        obtain ⟨rfl, nodup⟩ := (keep_eq_ok distinct).mp kept_eq
        refine (ih nodup).trans ?_
        simp

theorem collectFrom_congr {offer' : ι → Except ε (Option (κ × α))}
    (same : ∀ item ∈ items, offer item = offer' item) :
    collectFrom offer duplicate kept items = collectFrom offer' duplicate kept items := by
  induction items generalizing kept with
  | nil => rfl
  | cons item rest ih =>
    obtain ⟨here, there⟩ := List.forall_mem_cons.mp same
    unfold collectFrom
    rw [here]
    congr 1
    funext value
    congr 1
    funext kept
    exact ih there

theorem collectFrom_map {ι' : Type*} (view : ι' → ι) (items : List ι') :
    collectFrom offer duplicate kept (items.map view) =
      collectFrom (fun item => offer (view item)) duplicate kept items := by
  induction items generalizing kept with
  | nil => rfl
  | cons item rest ih =>
    rw [List.map_cons, collectFrom, collectFrom]
    congr 1
    funext value
    congr 1
    funext kept
    exact ih

theorem valueAt_eq_some {key : κ} {value : α} (distinct : (kept.map Prod.fst).Nodup) :
    valueAt kept key = some value ↔ (key, value) ∈ kept := by
  unfold valueAt
  constructor
  · intro found
    obtain ⟨other, first, same⟩ := Option.map_eq_some_iff.mp found
    have key_eq : other.1 = key := by simpa using List.find?_some first
    rw [show (key, value) = other from Prod.ext key_eq.symm same.symm]
    exact List.mem_of_find?_eq_some first
  · intro member
    obtain ⟨other, first⟩ := Option.isSome_iff_exists.mp
      (List.find?_isSome (p := fun other => decide (other.1 = key)) |>.mpr
        ⟨_, member, decide_eq_true rfl⟩)
    have key_eq : other.1 = key := by simpa using List.find?_some first
    rw [first, Option.map_some,
      List.inj_on_of_nodup_map distinct (List.mem_of_find?_eq_some first) member key_eq]

end Collect

end Systems
