import Mathlib.Algebra.Ring.Int.Defs
import Mathlib.Data.List.Infix
import Mathlib.Data.List.Sort
import KelvinClaw.Memory.Api

/-!
# Memory providers

What a controller asks of the store behind it, and the provider that keeps the values in
memory. A query answers with the entries whose text contains the asked text, both in lower
case, the best score first.

Decoding and lower-casing of texts are parameters.
-/

namespace KelvinClaw.Memory

open KelvinClaw.Core

/-- `trait MemoryProvider`: each operation with its result and the state after it. -/
structure MemoryProvider (π : Type) where
  id : String
  upsert : String → List UInt8 → List (String × String) → π → KelvinResult Unit × π
  query : String → ℕ → π → KelvinResult (List SearchHit) × π
  read : String → π → KelvinResult (Option (List UInt8)) × π
  delete : String → π → KelvinResult Bool × π
  health : π → KelvinResult Bool × π

/-- The text functions of the standard library that a query uses. -/
structure TextLibrary where
  fromUtf8Lossy : List UInt8 → String
  toLowercase : String → String

/-! ### Hits and their order -/

def inMemoryProviderId : String := "in_memory"

def searchSnippetCharLimit : ℕ := 160

def minSearchScore : Float32 := 0.001

def defaultSearchStartLine : ℕ := 1

def defaultSearchEndLine : ℕ := 1

/-- `f32::max` of numbers. -/
def f32Max (a b : Float32) : Float32 := if a < b then b else a

/-- The integer by whose order `f32::total_cmp` compares. -/
def totalKey (x : Float32) : ℤ :=
  if x.toBits.toNat < 2 ^ 31 then x.toBits.toNat else 2 ^ 31 - 1 - x.toBits.toNat

/-- The order of the hits: the highest score first, then by path, then by snippet. -/
def hitLe (a b : SearchHit) : Prop :=
  totalKey b.score < totalKey a.score ∨ totalKey b.score = totalKey a.score ∧
    (a.path < b.path ∨ a.path = b.path ∧ a.snippet ≤ b.snippet)

instance (a b : SearchHit) : Decidable (hitLe a b) := by
  unfold hitLe
  infer_instance

/-! ### The in-memory provider -/

/-- The entries of the map, with the latest one first and no key twice. -/
abbrev MemoryMap := List (String × List UInt8)

namespace MemoryMap

def remove (key : String) (entries : MemoryMap) : MemoryMap :=
  entries.filter (·.1 ≠ key)

def insert (key : String) (value : List UInt8) (entries : MemoryMap) : MemoryMap :=
  (key, value) :: remove key entries

end MemoryMap

variable (text : TextLibrary)

/-- `haystack.contains(&lowered)`, on the texts of a value and a query in lower case. -/
def Matches (query : String) (value : List UInt8) : Prop :=
  (text.toLowercase query).toList <:+: (text.toLowercase (text.fromUtf8Lossy value)).toList

instance (query : String) (value : List UInt8) : Decidable (Matches text query value) := by
  unfold Matches
  infer_instance

def searchHit (query : String) (entry : String × List UInt8) : SearchHit :=
  let lowered := text.toLowercase query
  let value := text.fromUtf8Lossy entry.2
  let haystack := text.toLowercase value
  { path := entry.1
    snippet := String.ofList (value.toList.take searchSnippetCharLimit)
    score := f32Max
      (Float32.ofNat lowered.utf8ByteSize / Float32.ofNat (max haystack.utf8ByteSize 1))
      minSearchScore
    startLine := defaultSearchStartLine
    endLine := defaultSearchEndLine }

def searchHits (query : String) (entries : MemoryMap) : List SearchHit :=
  (entries.filter fun entry => Matches text query entry.2).map (searchHit text query)

def inMemoryProvider : MemoryProvider MemoryMap where
  id := inMemoryProviderId
  upsert key value _metadata entries := (.ok (), entries.insert key value)
  query query maxResults entries :=
    (.ok (((searchHits text query entries).insertionSort hitLe).take maxResults), entries)
  read key entries := (.ok (entries.lookup key), entries)
  delete key entries := (.ok (entries.lookup key).isSome, entries.remove key)
  health entries := (.ok true, entries)

theorem length_le_of_query {text : TextLibrary} {query : String} {maxResults : ℕ}
    {entries after : MemoryMap} {hits : List SearchHit}
    (found : (inMemoryProvider text).query query maxResults entries = (.ok hits, after)) :
    hits.length ≤ maxResults := by
  have same : ((searchHits text query entries).insertionSort hitLe).take maxResults = hits :=
    Except.ok.inj (congrArg Prod.fst found)
  rw [← same, List.length_take]
  exact min_le_left _ _

end KelvinClaw.Memory
