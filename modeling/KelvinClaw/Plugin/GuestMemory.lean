import KelvinClaw.Library.LinearMemory
import KelvinClaw.Library.Words
import KelvinClaw.Plugin.TrustPolicy

/-!
# The memory of a model plugin

The host puts a response into the memory of the plugin: it lets the plugin allocate a region, writes
the response there, and returns the pointer and the length packed in one word. What the plugin
returns as its output is such a word too, which the host takes apart to read the region.

The writer does not look at the sign of the pointer that it is given: what belongs to a negative
pointer or to the null pointer is written to address zero, and the reader refuses its word.

The instance of the plugin is a parameter: a function that allocates, from any state to any state.
-/

namespace KelvinClaw.Plugin

open KelvinClaw.Core Systems

/-! ### Instances -/

/-- The state of an instance: its memory, and what it keeps elsewhere. -/
structure Instance (γ : Type) where
  memory : LinearMemory UInt8
  rest : γ

abbrev Alloc (γ : Type) := Int32 → Instance γ → Except String (Int32 × Instance γ)

/-- What an instance exports: the memory, and `alloc`, if its type is right. -/
structure Exports (γ : Type) where
  memory : Bool
  alloc : Option (Except String (Alloc γ))

/-! ### Numbers -/

def i32Max : ℕ := 2 ^ 31 - 1

/-- `usize::try_from`. -/
def usizeFrom (n : Int32) : Option ℕ := if n < 0 then none else some n.toNatClampNeg

/-- `i32::try_from`. -/
def i32From (n : ℕ) : Option Int32 := if n ≤ i32Max then some (Int32.ofNat n) else none

/-- `ok_or`. -/
def okOr {α : Type} (error : KelvinError) : Option α → KelvinResult α
  | some a => .ok a
  | none => .error error

@[simp] theorem okOr_eq_ok {α : Type} {error : KelvinError} {value : Option α} {a : α} :
    okOr error value = .ok a ↔ value = some a := by
  cases value <;> simp [okOr]

/-- `map_err` with `backend`. -/
def mapBackend {α : Type} (context : String) : Except String α → KelvinResult α
  | .ok a => .ok a
  | .error err => .error (.backend s!"{context}: {err}")

@[simp] theorem mapBackend_eq_ok {α : Type} {context : String} {result : Except String α} {a : α} :
    mapBackend context result = .ok a ↔ result = .ok a := by
  cases result <;> simp [mapBackend]

/-! ### The host and the memory -/

/-- `MemoryAccessError`. -/
def outOfBounds : String := "out of bounds memory access"

def readGuestBytes (memory : LinearMemory UInt8) (ptr len : Int32) (maxLen : ℕ)
    (context : String) : KelvinResult (List UInt8) := do
  refuseIf (ptr < 0 ∨ len < 0)
    (.invalidInput s!"{context}: pointer/length must be non-negative")
  let len ← okOr (.invalidInput s!"{context}: length conversion overflow") (usizeFrom len)
  refuseIf (maxLen < len) (.invalidInput s!"{context}: payload size {len} exceeds max {maxLen}")
  okOr (.invalidInput s!"{context}: memory read failed: {outOfBounds}")
    (memory.read ((usizeFrom ptr).getD 0) len)

def packPtrLen (ptr len : Int32) : Int64 := (joinHalves ptr.toUInt32 len.toUInt32).toInt64

def unpackPtrLen (value : Int64) (context : String) : KelvinResult (Int32 × Int32) := do
  refuseIf (value ≤ 0) (.backend s!"{context}: packed pointer/length is invalid")
  let ptr := upperHalf value.toUInt64
  let len := lowerHalf value.toUInt64
  if len = 0 then
    return (ptr.toInt32, 0)
  refuseIf (ptr = 0) (.backend s!"{context}: non-empty payload has null pointer")
  return (ptr.toInt32, len.toInt32)

variable {γ : Type}

def writeGuestResponse (maxResponseBytes : ℕ) (exports : Exports γ) (bytes : List UInt8)
    (caller : Instance γ) : KelvinResult (Int64 × Instance γ) := do
  refuseIf (maxResponseBytes < bytes.length)
    (.invalidInput s!"openai response exceeded max_response_bytes {maxResponseBytes}")
  refuseIf (exports.memory = false) (.invalidInput "model memory export missing")
  let alloc ← okOr (.invalidInput "model alloc export missing") exports.alloc
  let alloc ← mapBackend "resolve model alloc function" alloc
  let len ← okOr (.invalidInput "response exceeded i32 address space") (i32From bytes.length)
  let (ptr, caller) ← mapBackend "call model alloc for response" (alloc len caller)
  let memory ← okOr (.invalidInput s!"write model response failed: {outOfBounds}")
    (caller.memory.write ((usizeFrom ptr).getD 0) bytes)
  return (packPtrLen ptr len, { caller with memory })

def readOutput (maxResponseBytes : ℕ) (memory : LinearMemory UInt8) (packed : Int64) :
    KelvinResult (List UInt8) := do
  let (ptr, len) ← unpackPtrLen packed "model infer return"
  readGuestBytes memory ptr len maxResponseBytes "read model output"

/-! ### Reading and writing -/

theorem usizeFrom_getD (ptr : Int32) : (usizeFrom ptr).getD 0 = ptr.toNatClampNeg := by
  unfold usizeFrom
  split_ifs with negative
  · have below : ptr.toInt < 0 := Int32.lt_iff_toInt_lt.mp negative
    exact (Int.toNat_of_nonpos below.le).symm
  · rfl

theorem toNatClampNeg_of_i32From {n : ℕ} {len : Int32} (found : i32From n = some len) :
    len.toNatClampNeg = n ∧ 0 ≤ len := by
  obtain ⟨fits, rfl⟩ : n ≤ i32Max ∧ Int32.ofNat n = len := by
    simpa [i32From] using found
  exact ⟨toNatClampNeg_ofNat (Nat.lt_succ_of_le fits), ofNat_nonneg (Nat.lt_succ_of_le fits)⟩

theorem readGuestBytes_eq_ok {memory : LinearMemory UInt8} {ptr len : Int32} {maxLen : ℕ}
    {context : String} {bytes : List UInt8} :
    readGuestBytes memory ptr len maxLen context = .ok bytes ↔ 0 ≤ ptr ∧ 0 ≤ len ∧
      len.toNatClampNeg ≤ maxLen ∧
      memory.read ptr.toNatClampNeg len.toNatClampNeg = some bytes := by
  rw [readGuestBytes, bind_unit_eq_ok, refuseIf_eq_ok, not_or, Int32.not_lt, Int32.not_lt,
    and_assoc]
  refine and_congr_right fun _ => and_congr_right fun nonneg => ?_
  have found : usizeFrom len = some len.toNatClampNeg := if_neg (Int32.not_lt.mpr nonneg)
  simp only [found, usizeFrom_getD, bind_eq_ok, okOr_eq_ok, Option.some.injEq, exists_eq_left',
    refuseIf_eq_ok, Nat.not_lt]
  exact exists_const Unit

/-! ### Words -/

theorem eq_packPtrLen (value : Int64) : ∃ ptr len, value = packPtrLen ptr len := by
  refine ⟨(upperHalf value.toUInt64).toInt32, (lowerHalf value.toUInt64).toInt32, ?_⟩
  rw [packPtrLen, UInt32.toUInt32_toInt32, UInt32.toUInt32_toInt32, joinHalves_halves,
    Int64.toInt64_toUInt64]

theorem toUInt32_eq_zero {n : Int32} : n.toUInt32 = 0 ↔ n = 0 := by
  constructor
  · intro zero
    rw [← n.toInt32_toUInt32, zero]
    rfl
  · rintro rfl
    rfl

theorem packPtrLen_pos_iff {ptr len : Int32} :
    0 < packPtrLen ptr len ↔ 0 < ptr ∨ ptr = 0 ∧ len ≠ 0 := by
  rw [packPtrLen, toInt64_joinHalves_pos_iff, Int32.toInt32_toUInt32, ne_eq, toUInt32_eq_zero,
    toUInt32_eq_zero]

theorem unpackPtrLen_packPtrLen_eq_ok {ptr len : Int32} {context : String}
    {region : Int32 × Int32} :
    unpackPtrLen (packPtrLen ptr len) context = .ok region ↔ 0 < ptr ∧ region = (ptr, len) := by
  have pointer : upperHalf (packPtrLen ptr len).toUInt64 = ptr.toUInt32 := by
    rw [packPtrLen, UInt64.toUInt64_toInt64, upperHalf_joinHalves]
  have length : lowerHalf (packPtrLen ptr len).toUInt64 = len.toUInt32 := by
    rw [packPtrLen, UInt64.toUInt64_toInt64, lowerHalf_joinHalves]
  rw [unpackPtrLen, bind_unit_eq_ok, refuseIf_eq_ok, Int64.not_le, packPtrLen_pos_iff]
  simp only [pointer, length, toUInt32_eq_zero, Int32.toInt32_toUInt32]
  by_cases empty : len = 0
  · rw [if_pos empty, pure_eq_ok, eq_comm (a := region), empty]
    simp
  · rw [if_neg empty, bind_unit_eq_ok, refuseIf_eq_ok, pure_eq_ok, eq_comm (a := region)]
    -- a null pointer is refused in the second step
    constructor
    · rintro ⟨positive, nonzero, same⟩
      exact ⟨positive.resolve_right fun null => nonzero null.1, same⟩
    · rintro ⟨positive, same⟩
      refine ⟨.inl positive, ?_, same⟩
      rintro rfl
      exact absurd positive (by decide)

theorem readOutput_eq_error {value : Int64}
    (other : ∀ ptr len : Int32, 0 < ptr → 0 ≤ len → value ≠ packPtrLen ptr len)
    (maxResponseBytes : ℕ) (memory : LinearMemory UInt8) :
    ∃ err, readOutput maxResponseBytes memory value = .error err := by
  obtain ⟨ptr, len, rfl⟩ := eq_packPtrLen value
  cases outcome : readOutput maxResponseBytes memory (packPtrLen ptr len) with
  | error err => exact ⟨err, rfl⟩
  | ok output =>
    obtain ⟨region, taken, read⟩ := bind_eq_ok.mp outcome
    obtain ⟨positive, rfl⟩ := unpackPtrLen_packPtrLen_eq_ok.mp taken
    obtain ⟨-, nonneg, -⟩ := readGuestBytes_eq_ok.mp read
    exact absurd rfl (other ptr len positive nonneg)

/-! ### Responses -/

section Responses

variable {maxResponseBytes : ℕ} {exports : Exports γ} {bytes : List UInt8}
  {caller after : Instance γ} {value : Int64}

/-- What `alloc` returns for a response: a pointer and the state that it leaves. -/
def Allocates (exports : Exports γ) (bytes : List UInt8) (caller : Instance γ) (ptr len : Int32)
    (before : Instance γ) : Prop :=
  ∃ alloc, exports.alloc = some (.ok alloc) ∧ i32From bytes.length = some len ∧
    alloc len caller = .ok (ptr, before)

/-- The word gives the pointer that was allocated and the length of the response; the response is
in that region, and nothing else was changed since the region was allocated. -/
def Readable (exports : Exports γ) (bytes : List UInt8) (caller : Instance γ) (value : Int64)
    (after : Instance γ) : Prop :=
  ∃ ptr len before, Allocates exports bytes caller ptr len before ∧
    (∀ context, unpackPtrLen value context = .ok (ptr, len)) ∧
    after.memory.read ptr.toNatClampNeg len.toNatClampNeg = some bytes ∧
    LinearMemory.AgreesOutside ptr.toNatClampNeg len.toNatClampNeg before.memory after.memory ∧
    after.rest = before.rest

/-- A response that passes the checks of the host gets no positive pointer, and is small enough to
be written to address zero. -/
def Misplaced (maxResponseBytes : ℕ) (exports : Exports γ) (bytes : List UInt8)
    (caller : Instance γ) : Prop :=
  bytes.length ≤ maxResponseBytes ∧ exports.memory = true ∧
    ∃ ptr len before, Allocates exports bytes caller ptr len before ∧ ptr ≤ 0 ∧
      bytes.length ≤ before.memory.size

theorem writeGuestResponse_eq_ok :
    writeGuestResponse maxResponseBytes exports bytes caller = .ok (value, after) ↔
      bytes.length ≤ maxResponseBytes ∧ exports.memory = true ∧
      ∃ ptr len before, Allocates exports bytes caller ptr len before ∧
        ∃ memory, before.memory.write ptr.toNatClampNeg bytes = some memory ∧
          value = packPtrLen ptr len ∧ after = { before with memory } := by
  simp only [writeGuestResponse, bind_eq_ok, refuseIf_eq_ok, okOr_eq_ok,
    mapBackend_eq_ok, usizeFrom_getD, pure_eq_ok, Prod.exists, Prod.mk.injEq, not_lt,
    Bool.not_eq_false, Allocates]
  constructor
  · rintro ⟨-, small, -, exported, _, found, alloc, rfl, len, fits, ptr, before, called, memory,
      written, rfl, rfl⟩
    exact ⟨small, exported, ptr, len, before, ⟨alloc, found, fits, called⟩, memory, written,
      rfl, rfl⟩
  · rintro ⟨small, exported, ptr, len, before, ⟨alloc, found, fits, called⟩, memory, written,
      rfl, rfl⟩
    exact ⟨(), small, (), exported, _, found, alloc, rfl, len, fits, ptr, before, called, memory,
      written, rfl, rfl⟩

theorem Allocates.length_eq {ptr len : Int32} {before : Instance γ}
    (allocates : Allocates exports bytes caller ptr len before) :
    len.toNatClampNeg = bytes.length ∧ 0 ≤ len := by
  obtain ⟨-, -, fits, -⟩ := allocates
  exact toNatClampNeg_of_i32From fits

theorem Allocates.unique {ptr ptr' len len' : Int32} {before before' : Instance γ}
    (allocates : Allocates exports bytes caller ptr len before)
    (allocates' : Allocates exports bytes caller ptr' len' before') : ptr = ptr' := by
  obtain ⟨alloc, found, fits, called⟩ := allocates
  obtain ⟨alloc', found', fits', called'⟩ := allocates'
  obtain rfl : alloc = alloc' := Except.ok.inj (Option.some.inj (found.symm.trans found'))
  obtain rfl : len = len' := Option.some.inj (fits.symm.trans fits')
  exact (Prod.mk.inj (Except.ok.inj (called.symm.trans called'))).1

theorem readable_of_writeGuestResponse
    (written : writeGuestResponse maxResponseBytes exports bytes caller = .ok (value, after))
    (positive : ∀ ptr len before, Allocates exports bytes caller ptr len before → 0 < ptr) :
    Readable exports bytes caller value after := by
  obtain ⟨-, -, ptr, len, before, allocates, memory, put, rfl, rfl⟩ :=
    writeGuestResponse_eq_ok.mp written
  have length := allocates.length_eq.1
  refine ⟨ptr, len, before, allocates, fun context => ?_, ?_, ?_, rfl⟩
  · exact unpackPtrLen_packPtrLen_eq_ok.mpr ⟨positive ptr len before allocates, rfl⟩
  · rw [length]
    exact LinearMemory.read_of_write put
  · rw [length]
    exact LinearMemory.agreesOutside_of_write put

/-- What is written to address zero for want of a pointer cannot be found again. -/
theorem exists_not_readable (misplaced : Misplaced maxResponseBytes exports bytes caller) :
    ∃ value after, writeGuestResponse maxResponseBytes exports bytes caller = .ok (value, after) ∧
      ¬ Readable exports bytes caller value after := by
  obtain ⟨small, exported, ptr, len, before, allocates, nonpos, fits⟩ := misplaced
  have address : ptr.toNatClampNeg = 0 :=
    Int.toNat_of_nonpos (Int32.le_iff_toInt_le.mp nonpos)
  obtain ⟨memory, put⟩ : ∃ memory, before.memory.write ptr.toNatClampNeg bytes = some memory :=
    LinearMemory.write_eq_some (by rw [address, Nat.zero_add]; exact fits)
  refine ⟨_, _, writeGuestResponse_eq_ok.mpr
    ⟨small, exported, ptr, len, before, allocates, memory, put, rfl, rfl⟩, ?_⟩
  rintro ⟨ptr', len', before', allocates', taken, -⟩
  obtain ⟨positive, -⟩ := unpackPtrLen_packPtrLen_eq_ok.mp (taken "")
  exact absurd positive (Int32.not_lt.mpr nonpos)

end Responses

/-- A word is refused, by `unpack_ptr_len` or by the reader of the region. -/
def Refused (value : Int64) : Prop :=
  ∀ maxResponseBytes memory, ∃ err, readOutput maxResponseBytes memory value = .error err

/-- What the host writes can be read, the words of regions are taken apart as they were packed, and
all others are refused, exactly if the response is not written to address zero for want of a
pointer. -/
theorem guest_response_readable_iff (maxResponseBytes : ℕ) (exports : Exports γ)
    (bytes : List UInt8) (caller : Instance γ) :
    ((∀ value after,
        writeGuestResponse maxResponseBytes exports bytes caller = .ok (value, after) →
          Readable exports bytes caller value after) ∧
      (∀ (ptr len : Int32) (context : String), 0 < ptr → 0 ≤ len →
        unpackPtrLen (packPtrLen ptr len) context = .ok (ptr, len)) ∧
      (∀ value, (∀ ptr len : Int32, 0 < ptr → 0 ≤ len → value ≠ packPtrLen ptr len) →
        Refused value)) ↔
    ¬ Misplaced maxResponseBytes exports bytes caller := by
  constructor
  · rintro ⟨readable, -, -⟩ misplaced
    obtain ⟨value, after, written, lost⟩ := exists_not_readable misplaced
    exact lost (readable value after written)
  · intro placed
    refine ⟨fun value after written => ?_, fun ptr len context positive _ => ?_,
      fun value other => readOutput_eq_error other⟩
    · refine readable_of_writeGuestResponse written fun ptr len before allocates => ?_
      obtain ⟨small, exported, ptr', len', before', allocates', memory, put, -, -⟩ :=
        writeGuestResponse_eq_ok.mp written
      obtain rfl := allocates.unique allocates'
      by_contra nonpos
      have room := (LinearMemory.write_eq_some_iff.mp put).1
      exact placed ⟨small, exported, ptr, len', before', allocates', Int32.not_lt.mp nonpos,
        le_trans (Nat.le_add_left _ _) room⟩
    · exact unpackPtrLen_packPtrLen_eq_ok.mpr ⟨positive, rfl⟩

/-- An instance with one page of memory, whose `alloc` always returns the same pointer. -/
def fixedAlloc (ptr : Int32) : Exports Unit where
  memory := true
  alloc := some (.ok fun _ caller => .ok (ptr, caller))

def onePage : Instance Unit where
  memory := ⟨List.replicate 65536 0⟩
  rest := ()

/-- A negative pointer: the host succeeds, and what it returns is refused. -/
theorem negative_pointer_is_lost :
    ∃ value after,
      writeGuestResponse 1024 (fixedAlloc (-8)) [0x7B, 0x7D] onePage = .ok (value, after) ∧
        ¬ Readable (fixedAlloc (-8)) [0x7B, 0x7D] onePage value after := by
  have room : 2 ≤ onePage.memory.size := by
    rw [onePage, LinearMemory.size, List.length_replicate]
    decide
  exact exists_not_readable
    ⟨by decide, rfl, -8, 2, onePage, ⟨_, rfl, by decide, rfl⟩, by decide, room⟩

end KelvinClaw.Plugin
