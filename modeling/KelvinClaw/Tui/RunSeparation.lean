import Mathlib.Data.List.Induction
import KelvinClaw.Tui.Transcript

/-!
# Runs in the transcript

The entries of the transcript do not name the runs that they come from. Here they are followed:
an entry belongs to the run whose event pushed it. The transcript separates the runs when the
entries of each run are the ones that its events alone would make.
-/

namespace KelvinClaw.Tui

/-! ### Entries with their runs -/

section Entries

variable {α : Type}

def restrict (run : String) (owned : List (String × α)) : List α :=
  (owned.filter (·.1 = run)).map Prod.snd

def track (run : String) (before : List (String × α)) (after : List α) : List (String × α) :=
  (if before.length < after.length then run :: before.map Prod.fst
    else before.map Prod.fst).zip after

def FirstOf (run : String) (test : α → Bool) (owned : List (String × α)) : Prop :=
  ∀ entry, owned.find? (fun entry => test entry.2) = some entry → entry.1 = run

def HeadPasses (test : α → Bool) (entries : List α) : Prop := entries.head?.any test

instance (test : α → Bool) (entries : List α) : Decidable (HeadPasses test entries) :=
  inferInstanceAs (Decidable (_ = true))

/-- When the newest entry passes the test, overall or among those of the run, then the newest one
overall belongs to the run. -/
def HeadOf (run : String) (test : α → Bool) (owned : List (String × α)) : Prop :=
  HeadPasses test (owned.map Prod.snd) ∨ HeadPasses test (restrict run owned) →
    (owned.map Prod.fst).head? = some run

variable {run other : String} {test : α → Bool} {change : α → α} {entry : α}
  {owned : List (String × α)}

@[simp] theorem restrict_cons_self :
    restrict run ((run, entry) :: owned) = entry :: restrict run owned := by
  simp [restrict]

theorem restrict_cons_of_ne (elsewhere : other ≠ run) :
    restrict run ((other, entry) :: owned) = restrict run owned := by
  simp [restrict, elsewhere]

@[simp] theorem headPasses_nil : ¬ HeadPasses test ([] : List α) := by
  simp [HeadPasses]

@[simp] theorem headPasses_cons {entries : List α} :
    HeadPasses test (entry :: entries) ↔ test entry := by
  simp [HeadPasses]

theorem headPasses_map_snd :
    HeadPasses test (owned.map Prod.snd) ↔ HeadPasses (fun entry => test entry.2) owned := by
  cases owned with
  | nil => simp
  | cons entry rest => simp

@[simp] theorem length_updateFirst (entries : List α) :
    (updateFirst test change entries).length = entries.length := by
  induction entries with
  | nil => rfl
  | cons entry rest ih =>
    rw [updateFirst]
    split_ifs
    · rfl
    · rw [List.length_cons, List.length_cons, ih]

@[simp] theorem length_updateHead (entries : List α) :
    (updateHead test change entries).length = entries.length := by
  cases entries <;> rfl

theorem updateHead_of_not_headPasses {entries : List α} (passes : ¬ HeadPasses test entries) :
    updateHead test change entries = entries := by
  cases entries with
  | nil => rfl
  | cons entry rest => rw [updateHead, if_neg (by simpa using passes)]

/-! ### What an event does to the entries with their runs -/

theorem track_cons {entries : List α} (length : entries.length = owned.length) :
    track run owned (entry :: entries) = (run, entry) :: (owned.map Prod.fst).zip entries := by
  rw [track, if_pos (by rw [List.length_cons, length]; exact Nat.lt_succ_self _),
    List.zip_cons_cons]

theorem zip_self : (owned.map Prod.fst).zip (owned.map Prod.snd) = owned := by
  induction owned with
  | nil => rfl
  | cons entry rest ih => rw [List.map_cons, List.map_cons, List.zip_cons_cons, ih]

theorem track_push :
    track run owned (entry :: owned.map Prod.snd) = (run, entry) :: owned := by
  rw [track_cons (List.length_map _), zip_self]

theorem track_same {entries : List α} (length : entries.length = owned.length) :
    track run owned entries = (owned.map Prod.fst).zip entries := by
  rw [track, if_neg (by rw [length]; exact Nat.lt_irrefl _)]

theorem zip_updateFirst : (owned.map Prod.fst).zip (updateFirst test change (owned.map Prod.snd)) =
    updateFirst (fun entry => test entry.2) (Prod.map id change) owned := by
  induction owned with
  | nil => rfl
  | cons entry rest ih =>
    rw [List.map_cons, List.map_cons, updateFirst, updateFirst]
    split_ifs
    · rw [List.zip_cons_cons, zip_self]
      rfl
    · rw [List.zip_cons_cons, ih]

theorem zip_updateHead : (owned.map Prod.fst).zip (updateHead test change (owned.map Prod.snd)) =
    updateHead (fun entry => test entry.2) (Prod.map id change) owned := by
  cases owned with
  | nil => rfl
  | cons entry rest =>
    rw [List.map_cons, List.map_cons, updateHead, updateHead, List.zip_cons_cons, zip_self]
    split_ifs <;> rfl

theorem track_updateFirst : track run owned (updateFirst test change (owned.map Prod.snd)) =
    updateFirst (fun entry => test entry.2) (Prod.map id change) owned := by
  rw [track_same (by simp), zip_updateFirst]

theorem track_updateHead : track run owned (updateHead test change (owned.map Prod.snd)) =
    updateHead (fun entry => test entry.2) (Prod.map id change) owned := by
  rw [track_same (by simp), zip_updateHead]

/-! ### The entries of a run after a change -/

theorem restrict_updateFirst (mine : FirstOf run test owned) :
    restrict run (updateFirst (fun entry => test entry.2) (Prod.map id change) owned) =
        updateFirst test change (restrict run owned) ∧
      ∀ other, other ≠ run →
        restrict other (updateFirst (fun entry => test entry.2) (Prod.map id change) owned) =
          restrict other owned := by
  induction owned with
  | nil => exact ⟨rfl, fun _ _ => rfl⟩
  | cons entry rest ih =>
    obtain ⟨owner, entry⟩ := entry
    rw [updateFirst]
    by_cases passes : test entry
    · obtain rfl : owner = run := mine (owner, entry) (by simp [passes])
      rw [if_pos passes, restrict_cons_self, updateFirst, if_pos passes]
      refine ⟨restrict_cons_self, fun other elsewhere => ?_⟩
      rw [restrict_cons_of_ne elsewhere.symm]
      exact restrict_cons_of_ne elsewhere.symm
    · have later : FirstOf run test rest := by
        intro found first
        exact mine found (by simp [passes, first])
      obtain ⟨own, others⟩ := ih later
      rw [if_neg passes]
      constructor
      · by_cases here : owner = run
        · subst here
          rw [restrict_cons_self, restrict_cons_self, own, updateFirst, if_neg passes]
        · rw [restrict_cons_of_ne here, restrict_cons_of_ne here, own]
      · intro other elsewhere
        by_cases here : owner = other
        · subst here
          rw [restrict_cons_self, restrict_cons_self, others owner elsewhere]
        · rw [restrict_cons_of_ne here, restrict_cons_of_ne here, others other elsewhere]

theorem firstOf_of_unchanged (shows : ∀ entry, test entry → change entry ≠ entry)
    (unchanged : ∀ other, other ≠ run →
      restrict other (updateFirst (fun entry => test entry.2) (Prod.map id change) owned) =
        restrict other owned) : FirstOf run test owned := by
  induction owned with
  | nil => exact fun entry found => by cases found
  | cons entry rest ih =>
    obtain ⟨owner, entry⟩ := entry
    intro found first
    by_cases passes : test entry
    · obtain rfl : (owner, entry) = found := by simpa [passes] using first
      by_contra elsewhere
      have same := unchanged owner elsewhere
      rw [updateFirst, if_pos passes, restrict_cons_self, Prod.map_apply, id, restrict_cons_self]
        at same
      exact shows entry passes (List.cons.inj same).1
    · refine ih (fun other elsewhere => ?_) found (by simpa [passes] using first)
      have same := unchanged other elsewhere
      rw [updateFirst, if_neg passes] at same
      by_cases here : owner = other
      · subst here
        rw [restrict_cons_self, restrict_cons_self] at same
        exact (List.cons.inj same).2
      · rwa [restrict_cons_of_ne here, restrict_cons_of_ne here] at same

/-- Where the newest entry does not pass, that of the run may not pass either. -/
theorem headOf_iff_of_not_headPasses (fails : ¬ HeadPasses test (owned.map Prod.snd)) :
    HeadOf run test owned ↔ ¬ HeadPasses test (restrict run owned) := by
  constructor
  · intro mine own
    cases owned with
    | nil => exact headPasses_nil own
    | cons entry rest =>
      obtain ⟨owner, entry⟩ := entry
      obtain rfl : owner = run := Option.some_inj.mp (mine (.inr own))
      rw [restrict_cons_self, headPasses_cons] at own
      exact fails (headPasses_cons.mpr own)
  · intro none passes
    exact absurd passes (not_or.mpr ⟨fails, none⟩)

theorem restrict_updateHead (mine : HeadOf run test owned) :
    restrict run (updateHead (fun entry => test entry.2) (Prod.map id change) owned) =
        updateHead test change (restrict run owned) ∧
      ∀ other, other ≠ run →
        restrict other (updateHead (fun entry => test entry.2) (Prod.map id change) owned) =
          restrict other owned := by
  cases owned with
  | nil => exact ⟨rfl, fun _ _ => rfl⟩
  | cons entry rest =>
    obtain ⟨owner, entry⟩ := entry
    by_cases passes : test entry
    · obtain rfl : owner = run := Option.some_inj.mp (mine (.inl (headPasses_cons.mpr passes)))
      rw [updateHead, if_pos passes, Prod.map_apply, id, restrict_cons_self, restrict_cons_self,
        updateHead, if_pos passes]
      refine ⟨rfl, fun other elsewhere => ?_⟩
      rw [restrict_cons_of_ne elsewhere.symm, restrict_cons_of_ne elsewhere.symm]
    · have fails : ¬ HeadPasses test (((owner, entry) :: rest).map Prod.snd) :=
        fun head => passes (headPasses_cons.mp head)
      have none := (headOf_iff_of_not_headPasses fails).mp mine
      rw [updateHead, if_neg passes, updateHead_of_not_headPasses none]
      exact ⟨rfl, fun _ _ => rfl⟩

theorem headOf_of_unchanged (passes : HeadPasses test (owned.map Prod.snd))
    (shows : ∀ entry, test entry → change entry ≠ entry)
    (unchanged : ∀ other, other ≠ run →
      restrict other (updateHead (fun entry => test entry.2) (Prod.map id change) owned) =
        restrict other owned) : HeadOf run test owned := by
  intro _
  cases owned with
  | nil => exact absurd passes headPasses_nil
  | cons entry rest =>
    obtain ⟨owner, entry⟩ := entry
    rw [List.map_cons, headPasses_cons] at passes
    by_contra elsewhere
    have same := unchanged owner fun same => elsewhere (congrArg some same)
    rw [updateHead, if_pos passes, Prod.map_apply, id, restrict_cons_self, restrict_cons_self]
      at same
    exact shows entry passes (List.cons.inj same).1

/-! ### Changes that keep the runs apart -/

/-- What an event of a run does to all entries, it does to those of the run, and it does nothing
to the others. -/
def Apart (run : String) (after : List α → List α) (owned : List (String × α)) : Prop :=
  restrict run (track run owned (after (owned.map Prod.snd))) = after (restrict run owned) ∧
    ∀ other, other ≠ run →
      restrict other (track run owned (after (owned.map Prod.snd))) = restrict other owned

theorem apart_same : Apart run (fun entries => entries) owned := by
  have same : track run owned (owned.map Prod.snd) = owned := by
    rw [track_same (List.length_map _), zip_self]
  rw [Apart, same]
  exact ⟨rfl, fun _ _ => rfl⟩

theorem apart_push : Apart run (fun entries => entry :: entries) owned := by
  rw [Apart, track_push]
  exact ⟨restrict_cons_self, fun other elsewhere => restrict_cons_of_ne elsewhere.symm⟩

theorem apart_updateFirst_iff (shows : ∀ entry, test entry → change entry ≠ entry) :
    Apart run (updateFirst test change) owned ↔ FirstOf run test owned := by
  rw [Apart, track_updateFirst]
  exact ⟨fun apart => firstOf_of_unchanged shows apart.2, restrict_updateFirst⟩

/-- The newest entry that passes is changed, or else there is a new one. -/
theorem apart_updateFirst_or_push_iff (shows : ∀ entry, test entry → change entry ≠ entry) :
    Apart run (fun entries =>
        if entries.any test then updateFirst test change entries else entry :: entries) owned ↔
      FirstOf run test owned := by
  have found : (owned.map Prod.snd).any test ↔
      ∃ entry, owned.find? (fun entry => test entry.2) = some entry := by
    rw [← Option.isSome_iff_exists, List.find?_isSome]
    simp
  have own : (restrict run owned).any test → (owned.map Prod.snd).any test := by
    simp only [restrict, List.any_map, List.any_filter, List.any_eq_true]
    exact fun ⟨entry, member, passes⟩ => ⟨entry, member, ((Bool.and_eq_true _ _).mp passes).2⟩
  by_cases some : (owned.map Prod.snd).any test
  · rw [Apart, if_pos some, track_updateFirst]
    constructor
    · exact fun apart => firstOf_of_unchanged shows apart.2
    · intro mine
      obtain ⟨entry, first⟩ := found.mp some
      have member : entry.2 ∈ restrict run owned := by
        refine List.mem_map.mpr
          ⟨entry, List.mem_filter.mpr ⟨List.mem_of_find?_eq_some first, ?_⟩, rfl⟩
        exact decide_eq_true (mine entry first)
      have passes : test entry.2 := by simpa using List.find?_some first
      rw [if_pos (List.any_eq_true.mpr ⟨entry.2, member, passes⟩)]
      exact restrict_updateFirst mine
  · rw [Apart, if_neg some, if_neg (mt own some), track_push]
    refine iff_of_true ⟨restrict_cons_self, fun other elsewhere =>
      restrict_cons_of_ne elsewhere.symm⟩ fun entry first => ?_
    exact absurd (found.mpr ⟨entry, first⟩) some

theorem apart_push_updateHead_iff (shows : ∀ entry, test entry → change entry ≠ entry) :
    Apart run (fun entries => entry :: updateHead test change entries) owned ↔
      HeadOf run test owned := by
  have tracked : track run owned (entry :: updateHead test change (owned.map Prod.snd)) =
      (run, entry) :: updateHead (fun entry => test entry.2) (Prod.map id change) owned := by
    rw [track_cons (by simp), zip_updateHead]
  rw [Apart, tracked, restrict_cons_self, List.cons_inj_right]
  constructor
  · intro ⟨own, others⟩
    have unchanged : ∀ other, other ≠ run → restrict other (updateHead (fun entry => test entry.2)
        (Prod.map id change) owned) = restrict other owned := by
      intro other elsewhere
      rw [← others other elsewhere, restrict_cons_of_ne elsewhere.symm]
    by_cases passes : HeadPasses test (owned.map Prod.snd)
    · exact headOf_of_unchanged passes shows unchanged
    · rw [headOf_iff_of_not_headPasses passes]
      intro mine
      have same : updateHead (fun entry => test entry.2) (Prod.map id change) owned = owned :=
        updateHead_of_not_headPasses (mt headPasses_map_snd.mpr passes)
      rw [same] at own
      cases kept : restrict run owned with
      | nil => exact absurd (kept ▸ mine) headPasses_nil
      | cons first more =>
        rw [kept] at own mine
        rw [headPasses_cons] at mine
        rw [updateHead, if_pos mine] at own
        exact shows first mine (List.cons.inj own).1.symm
  · intro mine
    obtain ⟨own, others⟩ := @restrict_updateHead α run test change owned mine
    refine ⟨own, fun other elsewhere => ?_⟩
    rw [restrict_cons_of_ne elsewhere.symm, others other elsewhere]

/-- The newest entry is changed if it passes, and else there is a new one. A change may leave the
entries that pass as they are. -/
theorem apart_updateHead_or_push_iff {silent : Prop}
    (keeps : silent → ∀ entry, test entry → change entry = entry)
    (shows : ¬ silent → ∀ entry, test entry → change entry ≠ entry) :
    Apart run (fun entries =>
        if HeadPasses test entries then updateHead test change entries
        else entry :: entries) owned ↔
      HeadOf run test owned ∨ silent ∧ HeadPasses test (owned.map Prod.snd) ∧
        HeadPasses test (restrict run owned) := by
  by_cases passes : HeadPasses test (owned.map Prod.snd)
  · have own (mine : HeadOf run test owned) : HeadPasses test (restrict run owned) := by
      cases owned with
      | nil => exact absurd passes headPasses_nil
      | cons first rest =>
        obtain ⟨owner, first⟩ := first
        obtain rfl : owner = run := Option.some_inj.mp (mine (.inl passes))
        rw [restrict_cons_self]
        exact headPasses_cons.mpr (headPasses_cons.mp passes)
    rw [Apart, if_pos passes, track_updateHead]
    -- a change that shows needs the newest entry to be of the run; a silent one does not
    by_cases quiet : silent
    · have still {β : Type} (entries : List β) (pick : β → Bool) (alter : β → β)
          (same : ∀ entry, pick entry → alter entry = entry) :
          updateHead pick alter entries = entries := by
        cases entries with
        | nil => rfl
        | cons first rest =>
          rw [updateHead]
          split_ifs with picked
          · rw [same first picked]
          · rfl
      have unchanged : updateHead (fun entry => test entry.2) (Prod.map id change) owned = owned :=
        still owned _ _ fun entry picked => Prod.ext rfl (keeps quiet entry.2 picked)
      rw [unchanged, still _ _ _ (keeps quiet)]
      constructor
      · intro ⟨same, _⟩
        by_cases mine : HeadPasses test (restrict run owned)
        · exact .inr ⟨quiet, passes, mine⟩
        · rw [if_neg mine] at same
          exact absurd (congrArg List.length same) (by simp)
      · intro fits
        have mine : HeadPasses test (restrict run owned) := fits.elim own fun quiet => quiet.2.2
        exact ⟨(if_pos mine).symm, fun _ _ => rfl⟩
    · constructor
      · exact fun apart => .inl (headOf_of_unchanged passes (shows quiet) apart.2)
      · intro fits
        have mine := fits.resolve_right fun loud => quiet loud.1
        rw [if_pos (own mine)]
        exact restrict_updateHead mine
  · rw [Apart, if_neg passes, track_push, restrict_cons_self, headOf_iff_of_not_headPasses passes]
    constructor
    · intro ⟨same, _⟩
      refine .inl fun mine => ?_
      rw [if_pos mine] at same
      exact absurd (congrArg List.length same) (by simp)
    · intro fits
      have none := fits.resolve_right fun loud => passes loud.2.1
      exact ⟨(if_neg none).symm, fun other elsewhere => restrict_cons_of_ne elsewhere.symm⟩

end Entries

/-! ### Runs of events -/

def chatAfter (event : AgentEvent) (chat : List ChatMessage) : List ChatMessage :=
  ({ App.initial with chat }.handleAgentEvent event).chat

def toolsAfter (event : AgentEvent) (tools : List ToolEntry) : List ToolEntry :=
  ({ App.initial with tools }.handleAgentEvent event).tools

structure Traced where
  chat : List (String × ChatMessage)
  tools : List (String × ToolEntry)

def Traced.step (s : Traced) (event : AgentEvent) : Traced :=
  ⟨track event.runId s.chat (chatAfter event (s.chat.map Prod.snd)),
    track event.runId s.tools (toolsAfter event (s.tools.map Prod.snd))⟩

def trace (events : List AgentEvent) : Traced := events.foldl Traced.step ⟨[], []⟩

/-- The entries of each run are the ones that its events alone make. -/
def Separated (events : List AgentEvent) : Prop :=
  ∀ run,
    restrict run (trace events).chat = (App.after (events.filter (·.runId = run))).chat ∧
      restrict run (trace events).tools = (App.after (events.filter (·.runId = run))).tools

def IsBlank (delta : String) (finalChunk : Bool) : Prop := delta = "" ∧ finalChunk = false

/-- The entries that the event changes, and those of its run that it would change without the
other runs, are the same. An empty chunk may go to a message of another run, too. -/
def FitsNext (s : Traced) (event : AgentEvent) : Prop :=
  match event.data with
  | .assistant delta finalChunk =>
    HeadOf event.runId ChatMessage.unfinished s.chat ∨
      IsBlank delta finalChunk ∧ HeadPasses ChatMessage.unfinished (s.chat.map Prod.snd) ∧
        HeadPasses ChatMessage.unfinished (restrict event.runId s.chat)
  | .tool _ .start _ => HeadOf event.runId ChatMessage.unfinished s.chat
  | .tool toolName _ _ =>
    FirstOf event.runId (ChatMessage.running toolName) s.chat ∧
      FirstOf event.runId (ToolEntry.running toolName) s.tools
  | .lifecycle _ _ => True

/-! ### The entries of the interface -/

section Interface

variable (app : App) (event : AgentEvent)

theorem chat_handleAgentEvent : (app.handleAgentEvent event).chat = chatAfter event app.chat := by
  obtain ⟨seq, runId, tsMs, data⟩ := event
  cases data with
  | assistant delta finalChunk =>
    simp only [chatAfter, App.handleAgentEvent, App.handleAssistant]
    split <;> rfl
  | tool toolName phase summary => cases phase <;> rfl
  | lifecycle phase message =>
    simp only [chatAfter, App.handleAgentEvent, App.handleLifecycle]
    cases phase <;> cases message <;> simp only <;> split <;> rfl

theorem tools_handleAgentEvent :
    (app.handleAgentEvent event).tools = toolsAfter event app.tools := by
  obtain ⟨seq, runId, tsMs, data⟩ := event
  cases data with
  | assistant delta finalChunk =>
    simp only [toolsAfter, App.handleAgentEvent, App.handleAssistant]
    split <;> split <;> rfl
  | tool toolName phase summary => cases phase <;> rfl
  | lifecycle phase message =>
    simp only [toolsAfter, App.handleAgentEvent, App.handleLifecycle]
    cases phase <;> cases message <;> simp only <;> split <;> rfl

end Interface

theorem fitsNext_iff (s : Traced) (event : AgentEvent) : FitsNext s event ↔
    Apart event.runId (chatAfter event) s.chat ∧ Apart event.runId (toolsAfter event) s.tools := by
  obtain ⟨seq, runId, tsMs, data⟩ := event
  cases data with
  | assistant delta finalChunk =>
    have chat : chatAfter ⟨seq, runId, tsMs, .assistant delta finalChunk⟩ = fun entries =>
        if HeadPasses ChatMessage.unfinished entries then
          updateHead ChatMessage.unfinished (.extend delta finalChunk) entries
        else .assistant delta finalChunk :: entries := by
      funext entries
      exact apply_ite App.chat _ _ _
    have tools : toolsAfter ⟨seq, runId, tsMs, .assistant delta finalChunk⟩ = fun entries =>
        entries := rfl
    -- an empty chunk that ends nothing leaves the message as it is, every other one shows
    rw [chat, tools, @apart_updateHead_or_push_iff _ _ _ _ _ _ (IsBlank delta finalChunk)]
    · exact (and_iff_left apart_same).symm
    · intro ⟨empty, unended⟩ entry unfinished
      cases entry with
      | assistant text complete =>
        rw [empty, unended, ChatMessage.extend, String.append_empty]
        simpa [ChatMessage.unfinished] using unfinished
      | user _ | system _ | toolCall _ _ _ => rfl
    · intro loud entry unfinished same
      cases entry with
      | assistant text complete =>
        rw [ChatMessage.extend, ChatMessage.assistant.injEq] at same
        refine loud ⟨?_, ?_⟩
        · have lengths := congrArg String.length same.1
          rw [String.length_append] at lengths
          exact String.length_eq_zero_iff.mp (by omega)
        · rw [same.2]
          simpa [ChatMessage.unfinished] using unfinished
      | user _ | system _ | toolCall _ _ _ => cases unfinished
  | tool toolName phase summary =>
    -- the end of a call changes the entry that it closes, here and in the list of tools
    have closes : phase ≠ .start → ∀ entry, ChatMessage.running toolName entry →
        ChatMessage.close phase summary entry ≠ entry := by
      intro ended entry running same
      cases entry with
      | toolCall name before text =>
        rw [ChatMessage.close, ChatMessage.toolCall.injEq] at same
        rw [← same.2.1] at running
        cases phase <;> first | exact ended rfl | cases running
      | user _ | system _ | assistant _ _ => cases running
    have ends : phase ≠ .start → ∀ entry, ToolEntry.running toolName entry →
        ToolEntry.close phase summary tsMs entry ≠ entry := by
      intro ended entry running same
      have started : entry.phase = .start := (of_decide_eq_true running).2
      exact ended ((congrArg ToolEntry.phase same).trans started)
    cases phase with
    | start =>
      have finishes (entry : ChatMessage) (unfinished : entry.unfinished) :
          entry.finish ≠ entry := by
        intro same
        rw [← same] at unfinished
        cases entry <;> cases unfinished
      exact ((apart_push_updateHead_iff finishes).symm.trans (and_iff_left apart_push).symm)
    | finish =>
      exact and_congr (apart_updateFirst_iff (closes (by decide))).symm
        (apart_updateFirst_or_push_iff (ends (by decide))).symm
    | error =>
      exact and_congr (apart_updateFirst_iff (closes (by decide))).symm
        (apart_updateFirst_or_push_iff (ends (by decide))).symm
  | lifecycle phase message =>
    have tools : toolsAfter ⟨seq, runId, tsMs, .lifecycle phase message⟩ = fun entries =>
        entries := by
      funext entries
      simp only [toolsAfter, App.handleAgentEvent, App.handleLifecycle]
      cases phase <;> cases message <;> simp only <;> split <;> rfl
    -- a lifecycle event adds a line at most, which belongs to its run
    refine iff_of_true trivial ⟨?_, tools ▸ apart_same⟩
    cases message with
    | none =>
      have chat : chatAfter ⟨seq, runId, tsMs, .lifecycle phase none⟩ = fun entries =>
          entries := by
        funext entries
        cases phase <;> rfl
      exact chat ▸ apart_same
    | some text =>
      by_cases empty : text = ""
      · have chat : chatAfter ⟨seq, runId, tsMs, .lifecycle phase (some text)⟩ = fun entries =>
            entries := by
          funext entries
          simp only [chatAfter, App.handleAgentEvent, App.handleLifecycle, if_pos empty]
          cases phase <;> rfl
        exact chat ▸ apart_same
      · have chat : chatAfter ⟨seq, runId, tsMs, .lifecycle phase (some text)⟩ = fun entries =>
            .system text :: entries := by
          funext entries
          simp only [chatAfter, App.handleAgentEvent, App.handleLifecycle, if_neg empty]
          cases phase <;> rfl
        exact chat ▸ apart_push

/-! ### Runs of events -/

theorem trace_snoc (seen : List AgentEvent) (event : AgentEvent) :
    trace (seen ++ [event]) = (trace seen).step event :=
  List.foldl_concat ..

theorem after_snoc (seen : List AgentEvent) (event : AgentEvent) :
    App.after (seen ++ [event]) = (App.after seen).handleAgentEvent event :=
  List.foldl_concat ..

theorem separated_snoc_iff {seen : List AgentEvent} {event : AgentEvent} (before : Separated seen) :
    Separated (seen ++ [event]) ↔ FitsNext (trace seen) event := by
  rw [fitsNext_iff, Separated, trace_snoc]
  constructor
  · intro separated
    have own := separated event.runId
    rw [List.filter_append, List.filter_cons_of_pos (by simp), List.filter_nil, after_snoc,
      chat_handleAgentEvent, tools_handleAgentEvent, ← (before event.runId).1,
      ← (before event.runId).2] at own
    have others (run : String) (elsewhere : run ≠ event.runId) := separated run
    refine ⟨⟨own.1, fun run elsewhere => ?_⟩, own.2, fun run elsewhere => ?_⟩
    all_goals
      have same := separated run
      rw [List.filter_append, List.filter_cons_of_neg (by simpa using Ne.symm elsewhere),
        List.filter_nil, List.append_nil, ← (before run).1, ← (before run).2] at same
    · exact same.1
    · exact same.2
  · intro ⟨chat, tools⟩ run
    by_cases here : run = event.runId
    · subst here
      rw [List.filter_append, List.filter_cons_of_pos (by simp), List.filter_nil, after_snoc,
        chat_handleAgentEvent, tools_handleAgentEvent, ← (before event.runId).1,
        ← (before event.runId).2]
      exact ⟨chat.1, tools.1⟩
    · rw [List.filter_append, List.filter_cons_of_neg (by simpa using Ne.symm here),
        List.filter_nil, List.append_nil, ← (before run).1, ← (before run).2]
      exact ⟨chat.2 run here, tools.2 run here⟩

/-- **The runs stay apart as long as every event fits.** -/
theorem separated_iff (events : List AgentEvent) :
    (∀ seen, seen <+: events → Separated seen) ↔
      ∀ seen event, seen ++ [event] <+: events → FitsNext (trace seen) event := by
  constructor
  · intro apart seen event more
    exact (separated_snoc_iff (apart seen ((List.prefix_append _ _).trans more))).mp
      (apart _ more)
  · intro fits seen
    induction seen using List.reverseRecOn with
    | nil => exact fun _ _ => ⟨rfl, rfl⟩
    | append_singleton seen event ih =>
      intro more
      exact (separated_snoc_iff (ih ((List.prefix_append _ _).trans more))).mpr
        (fits seen event more)

/-- The text of a run is appended to the message of another one. -/
theorem chunk_joins_other_run : ¬ ∀ events, Separated events := by
  intro separated
  have own :=
    (separated [⟨1, "a", 0, .assistant "x" false⟩, ⟨2, "b", 0, .assistant "y" true⟩] "b").1
  revert own
  decide

end KelvinClaw.Tui
