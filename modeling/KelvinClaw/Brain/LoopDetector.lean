import KelvinClaw.Core.Tool
import KelvinClaw.Library.Streak

/-!
# The tool loop detector

The brain hands the detector the calls that each of its tool iterations was answered for. It
compares them with those of the iteration before, by name and arguments up to the approval,
and counts how often they repeat. From the threshold on it suspects a loop, and names the
first of the calls.
-/

namespace KelvinClaw.Brain

open KelvinClaw.Core Systems

/-! ### Recorded calls -/

def approvalFieldName : String := "approval"

def toolLoopDetectorThreshold : ℕ := 3

def withoutApproval : Value → Value
  | .obj members => .obj (members.filter fun member => member.1 ≠ approvalFieldName)
  | args => args

/-- The text of the arguments without their approval, with `toText` for `serde_json::to_string`. -/
def canonicalArgs (toText : Value → String) (args : Value) : String :=
  toText (withoutApproval args)

structure RecordedToolCall where
  toolName : String
  inputHash : String
  isError : Bool
  deriving DecidableEq, Repr

def RecordedToolCall.fingerprint (call : RecordedToolCall) : String × String :=
  (call.toolName, call.inputHash)

inductive LoopDetectionResult where
  | noIssue
  | suspectedLoop (toolName : String) (repeatCount : ℕ) (isAllErrors : Bool)
  deriving DecidableEq, Repr

/-! ### The detector -/

structure ToolLoopDetector where
  recentCalls : List RecordedToolCall
  consecutiveRepeats : ℕ
  repeatThreshold : ℕ
  deriving DecidableEq, Repr

namespace ToolLoopDetector

def ofThreshold (repeatThreshold : ℕ) : ToolLoopDetector := ⟨[], 0, repeatThreshold⟩

/-- `ToolLoopDetector::new`. -/
def new : ToolLoopDetector := ofThreshold toolLoopDetectorThreshold

variable (detector : ToolLoopDetector)

def isSameAsLast (newCalls : List RecordedToolCall) : Bool :=
  !detector.recentCalls.isEmpty && detector.recentCalls.length == newCalls.length &&
    (detector.recentCalls.zip newCalls).all fun (a, b) =>
      a.toolName == b.toolName && a.inputHash == b.inputHash

/-- The calls of an iteration with their outcomes, as the detector stores them. -/
def newCalls (toText : Value → String) (toolCalls : List (String × Value × Bool)) :
    List RecordedToolCall :=
  toolCalls.map fun (name, args, isError) => ⟨name, canonicalArgs toText args, isError⟩

def store (newCalls : List RecordedToolCall) : ToolLoopDetector :=
  { detector with
    recentCalls := newCalls
    consecutiveRepeats :=
      if detector.isSameAsLast newCalls then detector.consecutiveRepeats + 1 else 1 }

/-- What the stored calls say. There is no result when the first call is to be named and there
is none, where the code panics. -/
def detection : Option LoopDetectionResult :=
  if detector.repeatThreshold ≤ detector.consecutiveRepeats then
    detector.recentCalls.head?.map fun first =>
      .suspectedLoop first.toolName detector.consecutiveRepeats
        (detector.recentCalls.all (·.isError))
  else some .noIssue

def recordCall (toText : Value → String) (toolCalls : List (String × Value × Bool)) :
    ToolLoopDetector × Option LoopDetectionResult :=
  let recorded := detector.store (newCalls toText toolCalls)
  (recorded, recorded.detection)

/-! ### Histories -/

abbrev Fingerprint := List (String × String)

def fingerprint (toText : Value → String) (toolCalls : List (String × Value × Bool)) :
    Fingerprint :=
  toolCalls.map fun (name, args, _) => (name, canonicalArgs toText args)

def Tracks : List Fingerprint → Prop
  | [] => detector.recentCalls = []
  | newest :: earlier =>
    detector.recentCalls.map RecordedToolCall.fingerprint = newest ∧
      detector.consecutiveRepeats = if newest = [] then 1 else streak (newest :: earlier)

variable {detector} {toText : Value → String} {toolCalls : List (String × Value × Bool)}
  {newest : Fingerprint} {history : List Fingerprint}

theorem map_fingerprint_newCalls :
    (newCalls toText toolCalls).map RecordedToolCall.fingerprint =
      fingerprint toText toolCalls := by
  rw [newCalls, fingerprint, List.map_map]
  rfl

/-- Calls of one length whose parts agree one by one are the same calls. -/
theorem isSameAsLast_iff {calls : List RecordedToolCall} :
    detector.isSameAsLast calls = true ↔
      detector.recentCalls ≠ [] ∧
        detector.recentCalls.map RecordedToolCall.fingerprint =
          calls.map RecordedToolCall.fingerprint := by
  have zipped : ∀ recent : List RecordedToolCall,
      ((recent.length == calls.length) = true ∧ ((recent.zip calls).all fun (a, b) =>
        a.toolName == b.toolName && a.inputHash == b.inputHash) = true) ↔
      recent.map RecordedToolCall.fingerprint = calls.map RecordedToolCall.fingerprint := by
    intro recent
    induction recent generalizing calls with
    | nil => cases calls <;> simp
    | cons a recent ih =>
      cases calls with
      | nil => simp
      | cons b calls =>
        rw [List.map_cons, List.map_cons, List.cons_eq_cons, ← ih]
        simp [RecordedToolCall.fingerprint, Prod.ext_iff]
        tauto
  rw [isSameAsLast, Bool.and_eq_true, Bool.and_eq_true, and_assoc, zipped]
  simp

theorem tracks_ofThreshold (repeatThreshold : ℕ) : (ofThreshold repeatThreshold).Tracks [] := rfl

theorem tracks_store (tracks : detector.Tracks history) :
    (detector.store (newCalls toText toolCalls)).Tracks
      (fingerprint toText toolCalls :: history) := by
  refine ⟨map_fingerprint_newCalls, ?_⟩
  simp only [store, isSameAsLast_iff, map_fingerprint_newCalls]
  cases history with
  | nil =>
    have nothing : detector.recentCalls = [] := tracks
    simp [nothing, streak]
  | cons newest earlier =>
    obtain ⟨recent, count⟩ := tracks
    rw [recent, count]
    by_cases same : newest = fingerprint toText toolCalls
    · subst same
      rw [streak_cons_self]
      -- an iteration without calls never counts as the same as the one before
      by_cases empty : fingerprint toText toolCalls = []
      · have none : detector.recentCalls = [] := List.map_eq_nil_iff.mp (recent.trans empty)
        simp [none, empty]
      · have some : detector.recentCalls ≠ [] := fun none => empty (by rw [← recent, none]; rfl)
        simp [some, empty]
    · rw [streak_cons_of_ne same]
      simp [same]

/-- The `k` newest iterations of a history recorded the same calls, at least one each. -/
def Repeats (k : ℕ) : List Fingerprint → Prop
  | [] => False
  | newest :: earlier =>
    newest ≠ [] ∧ k ≤ (newest :: earlier).length ∧
      ∀ other ∈ (newest :: earlier).take k, other = newest

theorem repeatThreshold_le_iff (tracks : detector.Tracks (newest :: history))
    (positive : 0 < detector.repeatThreshold) :
    detector.repeatThreshold ≤ detector.consecutiveRepeats ↔
      detector.repeatThreshold = 1 ∨ Repeats detector.repeatThreshold (newest :: history) := by
  rw [tracks.2, Repeats]
  split_ifs with empty
  · simp [empty]
    omega
  · rw [le_streak_iff]
    simp only [ne_eq, empty, not_false_eq_true, true_and, iff_or_self]
    intro one
    simp [one]

/-- The code panics when the threshold asks for no repetition and there is no call. -/
theorem detection_eq_none_iff (tracks : detector.Tracks (newest :: history))
    (positive : 0 < detector.repeatThreshold) :
    detector.detection = none ↔ detector.repeatThreshold = 1 ∧ newest = [] := by
  have calls : detector.recentCalls = [] ↔ newest = [] := by
    rw [← tracks.1, List.map_eq_nil_iff]
  rw [detection]
  split_ifs with reached
  · rw [repeatThreshold_le_iff tracks positive] at reached
    rw [Option.map_eq_none_iff, List.head?_eq_none_iff, calls]
    constructor
    · intro empty
      exact ⟨reached.resolve_right fun repeats => repeats.1 empty, empty⟩
    · exact And.right
  · rw [repeatThreshold_le_iff tracks positive, not_or] at reached
    simp [reached.1]

theorem recordCall_ne_none (tracks : detector.Tracks history)
    (several : 1 < detector.repeatThreshold) :
    (detector.recordCall toText toolCalls).2 ≠ none := by
  intro panicked
  have one := ((detection_eq_none_iff (tracks_store tracks) (Nat.lt_of_succ_lt several)).mp
    panicked).1
  exact (Nat.ne_of_gt several) one

/-- No issue is seen when the threshold asks for repetition and the newest iterations did not
repeat. -/
theorem detection_eq_noIssue_iff (tracks : detector.Tracks (newest :: history))
    (positive : 0 < detector.repeatThreshold) :
    detector.detection = some .noIssue ↔
      detector.repeatThreshold ≠ 1 ∧ ¬ Repeats detector.repeatThreshold (newest :: history) := by
  rw [← not_or, ← repeatThreshold_le_iff tracks positive, detection]
  split_ifs with reached
  · simp [reached, Option.map_eq_some_iff]
  · simp [reached]

end ToolLoopDetector

end KelvinClaw.Brain
