import KelvinClaw.Sdk.SensitiveTools

/-!
# Where files are written

Directories are made and files are opened and written one place at a time. If all the files that are
opened lie in some part of the workspace, no file outside of it changes.
-/

namespace KelvinClaw.Sdk

open Systems KelvinClaw.Core

def ContentsOutside (inside : Location → Prop) (files : WorkspaceFiles) (place : Location) :
    Set (List UInt8) :=
  {bytes | ¬ inside place ∧ files place = some (.file bytes)}

/-- A computation that changes no file outside of some places and opens none there for writing. -/
abbrev WritesWithin {α : Type} (inside : Location → Prop) (act : WorkspaceAction α) : Prop :=
  Action.Frames (ContentsOutside inside)
    (fun _ access => ∀ place, access = .wrote place → inside place) act

variable {inside : Location → Prop} {place : Location}

theorem writesWithin_look (place : Location) :
    WritesWithin inside (Action.look place : WorkspaceAction _) :=
  fun _ => ⟨rfl, fun _ member => by cases member⟩

theorem writesWithin_put (within : inside place) (entry : Option WorkspaceEntry) :
    WritesWithin inside (Action.put place entry : WorkspaceAction _) := by
  intro files
  refine ⟨?_, fun _ member => by cases member⟩
  funext other
  ext bytes
  by_cases here : other = place
  · subst here
    simp [ContentsOutside, within]
  · simp [ContentsOutside, Action.put, here]

namespace SafeFsWriteTool

theorem writesWithin_makeDirectory (conflict : String) (place : Location) :
    WritesWithin inside (makeDirectory conflict place) := by
  intro files
  have looked : (Action.look place : WorkspaceAction _) files = ⟨.ok (files place), files, []⟩ :=
    rfl
  unfold makeDirectory
  rw [Action.bind_apply_ok looked]
  cases held : files place with
  | none =>
    refine ⟨?_, fun _ member => by cases member⟩
    funext other
    ext bytes
    by_cases here : other = place
    · subst here
      simp [ContentsOutside, Action.put, held]
    · simp [ContentsOutside, Action.put, here]
  | some entry =>
    cases entry with
    | directory => exact ⟨rfl, fun _ member => by cases member⟩
    | file bytes => exact ⟨rfl, fun _ member => by cases member⟩

theorem writesWithin_makeDirectories (conflict : String) (places : List Location) :
    WritesWithin inside (makeDirectories conflict places) := by
  induction places with
  | nil => exact Action.frames_pure _
  | cons place rest ih =>
    exact Action.frames_bind (writesWithin_makeDirectory conflict place) fun _ => ih

theorem writesWithin_openFile (within : inside place) (surroundings : WriteSurroundings)
    (append : Bool) : WritesWithin inside (openFile surroundings place append) := by
  have opened : WritesWithin inside (Action.log (.wrote place) : WorkspaceAction PUnit) := by
    apply Action.frames_log
    rintro _ _ ⟨⟩
    exact within
  unfold openFile
  apply Action.frames_bind (writesWithin_look place)
  intro held
  split
  · exact Action.frames_fail _
  · exact Action.frames_fail _
  · exact Action.frames_bind opened fun _ =>
      Action.frames_bind (writesWithin_put within _) fun _ => Action.frames_pure _
  · exact Action.frames_bind opened fun _ =>
      Action.frames_bind (writesWithin_put within _) fun _ => Action.frames_pure _

theorem writesWithin_writeAll (within : inside place) (surroundings : WriteSurroundings)
    (start bytes : List UInt8) : WritesWithin inside (writeAll surroundings place start bytes) := by
  unfold writeAll
  split
  · exact writesWithin_put within _
  · exact Action.frames_bind (writesWithin_put within _) fun _ => Action.frames_fail _

end SafeFsWriteTool

end KelvinClaw.Sdk
