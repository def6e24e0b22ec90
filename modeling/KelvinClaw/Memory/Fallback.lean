import KelvinClaw.Memory.SearchHits

/-!
# The memory manager with a fallback

A manager of the memory that has two others: the calls go to the first one until it fails, and from
the call that fails on to the second one. A flag keeps that it has failed. The status is that of
the manager which has the calls now, and after a failure says so.

Every error of the primary sets the flag, also one for arguments that the manager refuses. And the
provider that the status names as the one fallen back from is that of the manager which has the
calls, so it is the fallback.
-/

namespace KelvinClaw.Memory

open KelvinClaw.Core

variable {F σ τ : Type}

/-! ### Managers -/

structure MemoryEmbeddingProbeResult where
  ok : Bool
  error : Option String
  deriving DecidableEq, Repr

structure MemoryFallbackStatus where
  «from» : String
  reason : Option String
  deriving DecidableEq, Repr

structure MemoryProviderStatus where
  backend : String
  provider : String
  model : Option String
  requestedProvider : Option String
  files : Option ℕ
  chunks : Option ℕ
  dirty : Bool
  fallback : Option MemoryFallbackStatus
  custom : Value
  deriving DecidableEq, Repr

structure MemorySyncParams where
  reason : Option String
  force : Bool
  deriving DecidableEq, Repr

/-- `trait MemorySearchManager`: each operation with its result and the state after it. -/
structure MemorySearchManager (F σ : Type) where
  search : String → MemorySearchOptions → σ → KelvinResult (List (MemorySearchResult F)) × σ
  readFile : MemoryReadParams → σ → KelvinResult MemoryReadResult × σ
  status : σ → MemoryProviderStatus
  sync : Option MemorySyncParams → σ → KelvinResult Unit × σ
  probeEmbeddingAvailability : σ → KelvinResult MemoryEmbeddingProbeResult × σ
  probeVectorAvailability : σ → KelvinResult Bool × σ

/-- A call of one of the operations with a result. -/
inductive MemoryCall where
  | search (query : String) (opts : MemorySearchOptions)
  | readFile (params : MemoryReadParams)
  | sync (params : Option MemorySyncParams)
  | probeEmbeddingAvailability
  | probeVectorAvailability
  deriving DecidableEq, Repr

inductive MemoryAnswer (F : Type) where
  | hits (results : List (MemorySearchResult F))
  | text (result : MemoryReadResult)
  | synced
  | embedding (result : MemoryEmbeddingProbeResult)
  | vector (available : Bool)

namespace MemorySearchManager

variable (manager : MemorySearchManager F σ)

def serve (call : MemoryCall) (state : σ) : KelvinResult (MemoryAnswer F) × σ :=
  match call with
  | .search query opts => (manager.search query opts state).map (.map .hits) id
  | .readFile params => (manager.readFile params state).map (.map .text) id
  | .sync params => (manager.sync params state).map (.map fun _ => .synced) id
  | .probeEmbeddingAvailability =>
    (manager.probeEmbeddingAvailability state).map (.map .embedding) id
  | .probeVectorAvailability => (manager.probeVectorAvailability state).map (.map .vector) id

def after (calls : List MemoryCall) (state : σ) : σ :=
  calls.foldl (fun state call => (manager.serve call state).2) state

end MemorySearchManager

/-! ### The manager with a fallback -/

structure FallbackMemoryManager (σ τ : Type) where
  primary : σ
  fallback : τ
  primaryFailed : Bool
  lastError : Option String
  deriving DecidableEq

def mergeJson : Value → Value → Value
  | .obj base, .obj overlay =>
    .obj (overlay.foldl (fun members member => Value.insertMember member.1 member.2 members) base)
  | _, overlay => overlay

namespace FallbackMemoryManager

def new (primary : σ) (fallback : τ) : FallbackMemoryManager σ τ := ⟨primary, fallback, false, none⟩

variable (state : FallbackMemoryManager σ τ)

def setFailed (reason : String) : FallbackMemoryManager σ τ :=
  { state with primaryFailed := true, lastError := some reason }

def mergedStatus (base : MemoryProviderStatus) : MemoryProviderStatus :=
  if state.primaryFailed then
    { base with
      fallback := some ⟨base.provider, state.lastError⟩
      custom := mergeJson base.custom (Value.object
        [("fallback", Value.object
          [("enabled", .bool true), ("reason", Value.ofOption state.lastError)])]) }
  else base

/-- What all operations do: the primary is asked if it has not failed, and the fallback if it has or
does now. -/
def orElse {α : Type} (primary : σ → KelvinResult α × σ) (fallback : τ → KelvinResult α × τ) :
    KelvinResult α × FallbackMemoryManager σ τ :=
  let askFallback (state : FallbackMemoryManager σ τ) :=
    ((fallback state.fallback).1, { state with fallback := (fallback state.fallback).2 })
  if state.primaryFailed then askFallback state
  else
    match primary state.primary with
    | (.ok result, primary) => (.ok result, { state with primary })
    | (.error err, primary) => askFallback ({ state with primary }.setFailed err.toString)

end FallbackMemoryManager

section Managers

variable (primary : MemorySearchManager F σ) (fallback : MemorySearchManager F τ)

def fallbackManager : MemorySearchManager F (FallbackMemoryManager σ τ) where
  search query opts state := state.orElse (primary.search query opts) (fallback.search query opts)
  readFile params state := state.orElse (primary.readFile params) (fallback.readFile params)
  status state :=
    if state.primaryFailed then state.mergedStatus (fallback.status state.fallback)
    else state.mergedStatus (primary.status state.primary)
  sync params state := state.orElse (primary.sync params) (fallback.sync params)
  probeEmbeddingAvailability state :=
    state.orElse primary.probeEmbeddingAvailability fallback.probeEmbeddingAvailability
  probeVectorAvailability state :=
    state.orElse primary.probeVectorAvailability fallback.probeVectorAvailability

/-! ### What falling back is for -/

def IsInvalidInput (err : KelvinError) : Prop := ∃ text, err = .invalidInput text

end Managers

abbrev ServedCalls (F : Type) := List (MemoryCall × KelvinResult (MemoryAnswer F))

def failuresOf (served : ServedCalls F) : List KelvinError :=
  served.filterMap fun entry => match entry.2 with
    | .ok _ => none
    | .error err => some err

def noted {α : Type} (call : MemoryCall) (answer : α → MemoryAnswer F)
    (operation : σ → KelvinResult α × σ) (state : σ × ServedCalls F) :
    KelvinResult α × σ × ServedCalls F :=
  ((operation state.1).1, (operation state.1).2,
    state.2 ++ [(call, (operation state.1).1.map answer)])

def MemorySearchManager.recorded (manager : MemorySearchManager F σ) :
    MemorySearchManager F (σ × ServedCalls F) where
  search query opts := noted (.search query opts) .hits (manager.search query opts)
  readFile params := noted (.readFile params) .text (manager.readFile params)
  status state := manager.status state.1
  sync params := noted (.sync params) (fun _ => .synced) (manager.sync params)
  probeEmbeddingAvailability :=
    noted .probeEmbeddingAvailability .embedding manager.probeEmbeddingAvailability
  probeVectorAvailability := noted .probeVectorAvailability .vector manager.probeVectorAvailability

section Purpose

variable (primary : MemorySearchManager F σ) (fallback : MemorySearchManager F τ)

def watchedManager :
    MemorySearchManager F (FallbackMemoryManager (σ × ServedCalls F) (τ × ServedCalls F)) :=
  fallbackManager primary.recorded fallback.recorded

def ReportsFallback (status : MemoryProviderStatus) (provider : String) : Prop :=
  ∃ report, status.fallback = some report ∧ report.from = provider

section Calls

variable (call : MemoryCall) (state : FallbackMemoryManager (σ × ServedCalls F) (τ × ServedCalls F))

/-- The call goes to the primary, and its answer is the answer, unless the primary fails: then it is
that of the fallback. What an error that refuses the arguments comes to is left open. -/
structure ServedByPrimary : Prop where
  asked : ((watchedManager primary fallback).serve call state).2.primary.2 =
    state.primary.2 ++ [(call, (primary.serve call state.primary.1).1)]
  answers : ∀ answer, (primary.serve call state.primary.1).1 = .ok answer →
    ((watchedManager primary fallback).serve call state).1 = .ok answer ∧
      ((watchedManager primary fallback).serve call state).2.fallback = state.fallback
  replaced : ∀ err, (primary.serve call state.primary.1).1 = .error err → ¬ IsInvalidInput err →
    ((watchedManager primary fallback).serve call state).1 =
      (fallback.serve call state.fallback.1).1

/-- The call goes to the fallback alone, and its answer is the answer. -/
structure ServedByFallback : Prop where
  asked : ((watchedManager primary fallback).serve call state).2.fallback.2 =
    state.fallback.2 ++ [(call, (fallback.serve call state.fallback.1).1)]
  answers : ((watchedManager primary fallback).serve call state).1 =
    (fallback.serve call state.fallback.1).1
  spared : ((watchedManager primary fallback).serve call state).2.primary = state.primary

/-- The primary has answered with an error that does not refuse arguments. -/
def PrimaryFailed : Prop := ∃ err ∈ failuresOf state.primary.2, ¬ IsInvalidInput err

end Calls

def afterCalls (calls : List MemoryCall) (start : σ) (other : τ) :
    FallbackMemoryManager (σ × ServedCalls F) (τ × ServedCalls F) :=
  (watchedManager primary fallback).after calls (.new (start, []) (other, []))

/-- After the calls, the next call is served by the primary as long as it has not failed and by the
fallback when it has, and the status names the provider of the primary exactly then. -/
structure FallsBack (calls : List MemoryCall) (start : σ) (other : τ) : Prop where
  serving : ∀ call, ¬ PrimaryFailed (afterCalls primary fallback calls start other) →
    ServedByPrimary primary fallback call (afterCalls primary fallback calls start other)
  fallenBack : ∀ call, PrimaryFailed (afterCalls primary fallback calls start other) →
    ServedByFallback primary fallback call (afterCalls primary fallback calls start other)
  reported : ReportsFallback
      ((watchedManager primary fallback).status (afterCalls primary fallback calls start other))
      (primary.status (afterCalls primary fallback calls start other).primary.1).provider ↔
    PrimaryFailed (afterCalls primary fallback calls start other)

/-- The state of the primary after the calls that it serves by itself, with its first error and the
calls from that one on. -/
def handover : List MemoryCall → σ → σ × Option (KelvinError × List MemoryCall)
  | [], state => (state, none)
  | call :: rest, state =>
    match primary.serve call state with
    | (.ok _, state) => handover rest state
    | (.error err, state) => (state, some (err, call :: rest))

/-- The primary does not refuse the arguments of the call that it fails by, and the fallback is of
the same provider. A primary that has not failed does not report to have fallen back from
itself. -/
def HandsOver (calls : List MemoryCall) (start : σ) (other : τ) : Prop :=
  match handover primary calls start with
  | (state, none) => ¬ ReportsFallback (primary.status state) (primary.status state).provider
  | (state, some (err, rest)) => ¬ IsInvalidInput err ∧
    (fallback.status (fallback.after rest other)).provider = (primary.status state).provider

end Purpose

/-! ### The calls are handed over -/

section Handover

variable {primary : MemorySearchManager F σ} {fallback : MemorySearchManager F τ}
  {state : FallbackMemoryManager σ τ}

theorem map_orElse {α β : Type} (f : α → β) (ask : σ → KelvinResult α × σ)
    (askOther : τ → KelvinResult α × τ) :
    (state.orElse ask askOther).map (Except.map f) id =
      state.orElse (fun s => (ask s).map (Except.map f) id)
        (fun s => (askOther s).map (Except.map f) id) := by
  unfold FallbackMemoryManager.orElse
  cases state.primaryFailed with
  | true => rfl
  | false =>
    rcases asked : ask state.primary with ⟨result, next⟩
    cases result with
    | ok a => simp [asked, Except.map]
    | error err => simp [asked, Except.map, FallbackMemoryManager.setFailed]

theorem serve_fallbackManager (call : MemoryCall) :
    (fallbackManager primary fallback).serve call state =
      state.orElse (primary.serve call) (fallback.serve call) := by
  cases call <;> exact map_orElse _ _ _

theorem serve_fallback_of_failed (failed : state.primaryFailed = true) (call : MemoryCall) :
    (fallbackManager primary fallback).serve call state =
      ((fallback.serve call state.fallback).1,
        { state with fallback := (fallback.serve call state.fallback).2 }) := by
  rw [serve_fallbackManager, FallbackMemoryManager.orElse, if_pos failed]

theorem after_of_failed (failed : state.primaryFailed = true) (calls : List MemoryCall) :
    (fallbackManager primary fallback).after calls state =
      { state with fallback := fallback.after calls state.fallback } := by
  induction calls generalizing state with
  | nil => rfl
  | cons call rest ih =>
    rw [MemorySearchManager.after, List.foldl_cons, serve_fallback_of_failed failed]
    exact @ih { state with fallback := (fallback.serve call state.fallback).2 } failed

theorem after_eq_handover (calls : List MemoryCall) (start : σ) (other : τ) :
    (fallbackManager primary fallback).after calls (.new start other) =
      match handover primary calls start with
      | (state, none) => .new state other
      | (state, some (err, rest)) =>
        ⟨state, fallback.after rest other, true, some err.toString⟩ := by
  induction calls generalizing start with
  | nil => rfl
  | cons call rest ih =>
    rw [MemorySearchManager.after, List.foldl_cons, handover, serve_fallbackManager,
      FallbackMemoryManager.orElse]
    rcases asked : primary.serve call start with ⟨result, next⟩
    cases result with
    | ok answer =>
      simp only [FallbackMemoryManager.new, asked, Bool.false_eq_true, if_false]
      exact ih next
    | error err =>
      simp only [FallbackMemoryManager.new, asked, Bool.false_eq_true, if_false]
      exact @after_of_failed _ _ _ primary fallback
        ⟨next, (fallback.serve call other).2, true, some err.toString⟩ rfl rest

end Handover

/-! ### Managers on record -/

section Records

variable {primary : MemorySearchManager F σ} {fallback : MemorySearchManager F τ}
  {manager : MemorySearchManager F σ}

theorem serve_recorded (call : MemoryCall) (state : σ × ServedCalls F) :
    manager.recorded.serve call state = ((manager.serve call state.1).1,
      (manager.serve call state.1).2, state.2 ++ [(call, (manager.serve call state.1).1)]) := by
  cases call <;> rfl

theorem after_recorded (calls : List MemoryCall) (state : σ × ServedCalls F) :
    (manager.recorded.after calls state).1 = manager.after calls state.1 := by
  induction calls generalizing state with
  | nil => rfl
  | cons call rest ih =>
    rw [MemorySearchManager.after, List.foldl_cons, serve_recorded]
    exact ih _

theorem failuresOf_append (earlier later : ServedCalls F) :
    failuresOf (earlier ++ later) = failuresOf earlier ++ failuresOf later :=
  List.filterMap_append

theorem handover_recorded (calls : List MemoryCall) (start : σ) (past : ServedCalls F)
    (clean : failuresOf past = []) :
    ∃ record, handover primary.recorded calls (start, past) =
        (((handover primary calls start).1, record), (handover primary calls start).2) ∧
      failuresOf record = ((handover primary calls start).2.map Prod.fst).toList := by
  induction calls generalizing start past with
  | nil => exact ⟨past, rfl, clean⟩
  | cons call rest ih =>
    rw [handover, handover, serve_recorded]
    rcases asked : primary.serve call start with ⟨result, next⟩
    simp only
    cases result with
    | ok answer =>
      refine ih next (past ++ [(call, .ok answer)]) ?_
      rw [failuresOf_append, clean]
      rfl
    | error err =>
      refine ⟨past ++ [(call, .error err)], rfl, ?_⟩
      rw [failuresOf_append, clean]
      rfl

variable {call : MemoryCall} {state : FallbackMemoryManager (σ × ServedCalls F) (τ × ServedCalls F)}

theorem servedByFallback_of_failed (failed : state.primaryFailed = true) :
    ServedByFallback primary fallback call state := by
  have served := @serve_fallback_of_failed _ _ _ primary.recorded fallback.recorded _ failed call
  rw [serve_recorded] at served
  constructor
  · rw [watchedManager, served]
  · rw [watchedManager, served]
  · rw [watchedManager, served]

theorem servedByPrimary_of_working (working : state.primaryFailed = false) :
    ServedByPrimary primary fallback call state := by
  have served := @serve_fallbackManager _ _ _ primary.recorded fallback.recorded state call
  rw [FallbackMemoryManager.orElse, if_neg (by simp [working]), serve_recorded] at served
  constructor
  · rw [watchedManager, served]
    cases (primary.serve call state.primary.1).1 <;> rfl
  · intro answer answered
    rw [watchedManager, served, answered]
    exact ⟨rfl, rfl⟩
  · intro err failed _
    rw [watchedManager, served, failed]
    exact congrArg Prod.fst (serve_recorded call state.fallback)

theorem not_servedByPrimary (failed : state.primaryFailed = true) :
    ¬ ServedByPrimary primary fallback call state := by
  intro served
  have longer := congrArg List.length served.asked
  rw [(servedByFallback_of_failed failed).spared] at longer
  simp at longer

end Records

/-- **Falling back.** After every sequence of calls the manager has fallen back as it should exactly
if the calls are handed over as they should be. -/
theorem falls_back_iff (primary : MemorySearchManager F σ) (fallback : MemorySearchManager F τ)
    (calls : List MemoryCall) (start : σ) (other : τ) :
    FallsBack primary fallback calls start other ↔
      HandsOver primary fallback calls start other := by
  obtain ⟨record, handed, failures⟩ := @handover_recorded _ _ primary calls start [] rfl
  have reached := @after_eq_handover _ _ _ primary.recorded fallback.recorded calls (start, [])
    (other, [])
  change afterCalls primary fallback calls start other = _ at reached
  unfold HandsOver
  rcases handedOver : handover primary calls start with ⟨state, _ | ⟨err, rest⟩⟩
  · rw [handedOver] at handed failures
    rw [handed] at reached
    have none : ¬ PrimaryFailed (afterCalls primary fallback calls start other) := by
      rw [PrimaryFailed, reached]
      simp only [FallbackMemoryManager.new, failures]
      rintro ⟨err, member, -⟩
      cases member
    constructor
    · intro law reports
      refine none (law.reported.mp ?_)
      rw [reached]
      exact reports
    · intro unreported
      refine ⟨fun call _ => ?_, fun call failed => absurd failed none, ?_⟩
      · exact servedByPrimary_of_working (by rw [reached]; rfl)
      · refine iff_of_false ?_ none
        rw [reached]
        exact unreported
  · rw [handedOver] at handed failures
    rw [handed] at reached
    have isFailed : (afterCalls primary fallback calls start other).primaryFailed = true := by
      rw [reached]
    have failed : PrimaryFailed (afterCalls primary fallback calls start other) ↔
        ¬ IsInvalidInput err := by
      rw [PrimaryFailed, reached]
      simp [failures]
    -- the status is that of the fallback, and names its provider
    have reports : ReportsFallback
        ((watchedManager primary fallback).status (afterCalls primary fallback calls start other))
        (primary.status (afterCalls primary fallback calls start other).primary.1).provider ↔
          (fallback.status (fallback.after rest other)).provider =
            (primary.status state).provider := by
      have served := @after_recorded _ _ fallback rest (other, [])
      rw [reached, ← served]
      constructor
      · rintro ⟨report, made, named⟩
        obtain rfl := Option.some_inj.mp made
        exact named
      · intro same
        exact ⟨_, rfl, same⟩
    constructor
    · intro law
      have refusedNot : ¬ IsInvalidInput err := by
        rw [← failed]
        by_contra working
        exact not_servedByPrimary isFailed (law.serving .probeVectorAvailability working)
      exact ⟨refusedNot, reports.mp (law.reported.mpr (failed.mpr refusedNot))⟩
    · rintro ⟨refusedNot, same⟩
      refine ⟨fun call working => absurd (failed.mpr refusedNot) working,
        fun call _ => servedByFallback_of_failed isFailed, ?_⟩
      exact iff_of_true (reports.mpr same) (failed.mpr refusedNot)

/-! ### Two primaries -/

/-- A manager without files that checks the paths of reads, and searches with the given answer. -/
def emptyManager (provider : String)
    (answer : KelvinResult (List (MemorySearchResult ℕ))) : MemorySearchManager ℕ Unit where
  search _ _ state := (answer, state)
  readFile params state :=
    ((validateRelPath (Sdk.slashed params.relPath)).map fun _ =>
      ⟨"", Sdk.slashed params.relPath⟩, state)
  status _ :=
    { backend := "builtin"
      provider
      model := none
      requestedProvider := some provider
      files := some 0
      chunks := some 0
      dirty := false
      fallback := none
      custom := .obj [] }
  sync _ state := (.ok (), state)
  probeEmbeddingAvailability state := (.ok ⟨false, none⟩, state)
  probeVectorAvailability state := (.ok false, state)

/-- A path out of scope hands over the calls. And after a failure of the backend, the status names
the provider of the fallback as the one fallen back from. -/
theorem refused_path_falls_back :
    ¬ FallsBack (emptyManager "markdown" (.ok [])) (emptyManager "markdown" (.ok []))
        [.readFile ⟨"notes.txt", none, none⟩] () () ∧
      ¬ FallsBack (emptyManager "rpc" (.error (.backend "unavailable")))
        (emptyManager "markdown" (.ok [])) [.search "router" ⟨5, 0⟩] () () := by
  constructor
  · intro law
    have refused : failuresOf (afterCalls (emptyManager "markdown" (.ok []))
        (emptyManager "markdown" (.ok [])) [.readFile ⟨"notes.txt", none, none⟩] () ()).primary.2 =
          [.invalidInput "memory_get path is out of scope: notes.txt"] := by
      decide +kernel
    have working : ¬ PrimaryFailed (afterCalls (emptyManager "markdown" (.ok []))
        (emptyManager "markdown" (.ok [])) [.readFile ⟨"notes.txt", none, none⟩] () ()) := by
      rw [PrimaryFailed, refused]
      simp [IsInvalidInput]
    exact not_servedByPrimary (by decide +kernel) (law.serving .probeVectorAvailability working)
  · intro law
    obtain ⟨report, made, named⟩ := law.reported.mpr
      ⟨.backend "unavailable", List.mem_cons_self, by simp [IsInvalidInput]⟩
    obtain rfl := Option.some_inj.mp made
    revert named
    decide

end KelvinClaw.Memory
