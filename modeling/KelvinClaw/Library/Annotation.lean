import KelvinClaw.Library.Journal

/-!
# Annotated journals

A computation can be watched by notes on its events, which say what the events alone do not show.
The watched computation is built like the one it watches, from annotated parts, and without its
notes it is the one it watches.
-/

namespace Systems

universe u

variable {ε ν : Type u}

def annotateFirst (note : ν) : List ε → List (ε × Option ν)
  | [] => []
  | event :: rest => (event, some note) :: rest.map fun event => (event, none)

def unannotated (journal : List ε) : List (ε × Option ν) := journal.map fun event => (event, none)

theorem map_fst_annotateFirst (note : ν) (journal : List ε) :
    (annotateFirst note journal).map Prod.fst = journal := by
  cases journal with
  | nil => rfl
  | cons event rest =>
    rw [annotateFirst, List.map_cons, List.map_map]
    exact congrArg (event :: ·) (List.map_id rest)

theorem take_annotateFirst (note : ν) (journal : List ε) (events : ℕ) :
    (annotateFirst note journal).take events = annotateFirst note (journal.take events) := by
  cases journal with
  | nil => simp [annotateFirst]
  | cons event rest =>
    cases events with
    | zero => rfl
    | succ more => simp [annotateFirst]

theorem length_annotateFirst (note : ν) (journal : List ε) :
    (annotateFirst note journal).length = journal.length := by
  cases journal <;> simp [annotateFirst]

theorem map_fst_unannotated (journal : List ε) :
    (unannotated journal : List (ε × Option ν)).map Prod.fst = journal := by
  rw [unannotated, List.map_map]
  exact List.map_id journal

namespace Action

variable {σ ε' err α β : Type u}

/-- The same computation with another journal. -/
def mapJournal (f : List ε → List ε') (act : Action σ ε err α) : Action σ ε' err α := fun s =>
  ⟨(act s).result, (act s).state, f (act s).journal⟩

/-- Without its notes, the watched computation is the one it watches. -/
def Erases (watched : Action σ (ε × Option ν) err α) (act : Action σ ε err α) : Prop :=
  ∀ s, (watched s).result = (act s).result ∧ (watched s).state = (act s).state ∧
    (watched s).journal.map Prod.fst = (act s).journal

theorem erases_mapJournal {f : List ε → List (ε × Option ν)}
    (annotates : ∀ journal, (f journal).map Prod.fst = journal) (act : Action σ ε err α) :
    Erases (mapJournal f act) act :=
  fun _ => ⟨rfl, rfl, annotates _⟩

theorem erases_pure (a : α) :
    Erases (pure a : Action σ (ε × Option ν) err α) (pure a : Action σ ε err α) :=
  fun _ => ⟨rfl, rfl, rfl⟩

theorem erases_fail (e : err) :
    Erases (fail e : Action σ (ε × Option ν) err α) (fail e : Action σ ε err α) :=
  fun _ => ⟨rfl, rfl, rfl⟩

theorem erases_bind {watched : Action σ (ε × Option ν) err α} {act : Action σ ε err α}
    {watchedNext : α → Action σ (ε × Option ν) err β} {next : α → Action σ ε err β}
    (first : Erases watched act) (second : ∀ a, Erases (watchedNext a) (next a)) :
    Erases (watched >>= watchedNext) (act >>= next) := by
  intro s
  obtain ⟨result, state, journal⟩ := first s
  cases ran : (act s).result with
  | error e =>
    rw [bind_apply_of_error (result.trans ran), bind_apply_of_error ran]
    exact ⟨rfl, state, journal⟩
  | ok a =>
    rw [bind_apply_of_result (result.trans ran), bind_apply_of_result ran]
    obtain ⟨resultNext, stateNext, journalNext⟩ := second a (act s).state
    refine ⟨?_, ?_, ?_⟩
    · rw [state, resultNext]
    · rw [state, stateNext]
    · rw [List.map_append, state, journal, journalNext]

/-- A watched computation may look at the state for its notes. -/
theorem erases_get_bind {next : σ → Action σ (ε × Option ν) err α} {act : Action σ ε err α}
    (erases : ∀ s, Erases (next s) act) : Erases (get >>= next) act := by
  intro s
  rw [get_bind_apply]
  exact erases s s

theorem erases_ite {condition : Prop} [Decidable condition]
    {watched other : Action σ (ε × Option ν) err α} {act another : Action σ ε err α}
    (yes : Erases watched act) (no : Erases other another) :
    Erases (if condition then watched else other) (if condition then act else another) := by
  split
  · exact yes
  · exact no

theorem erases_attempt {watched : Action σ (ε × Option ν) err α} {act : Action σ ε err α}
    (erases : Erases watched act) : Erases (attempt watched) (attempt act) := by
  intro s
  rw [attempt_apply, attempt_apply]
  obtain ⟨result, state, journal⟩ := erases s
  refine ⟨?_, state, journal⟩
  rw [result]

/-- A part without notes, from the events it logs. -/
theorem triple_unannotated {L : Type*} {observer : Observer L (ε × Option ν)} {pre : L → Prop}
    {allowed : ε → Prop} {act : Action σ ε err α} (logs : Logs allowed act)
    (closed : ∀ ledger event, pre ledger → allowed event →
      pre (observer.record ledger (event, none)))
    (safe : ∀ ledger, pre ledger → observer.during ledger ∧ observer.failing ledger) :
    Triple observer pre (mapJournal unannotated act) fun _ => pre := by
  have noted : Logs (fun event : ε × Option ν => allowed event.1 ∧ event.2 = none)
      (mapJournal unannotated act) := by
    intro s
    obtain ⟨same, logged⟩ := logs s
    refine ⟨same, fun event member => ?_⟩
    obtain ⟨plain, inside, rfl⟩ := List.mem_map.mp member
    exact ⟨logged plain inside, rfl⟩
  refine triple_of_logs noted (fun ledger event holds meets => ?_) safe
  obtain ⟨event, note⟩ := event
  obtain ⟨allows, rfl⟩ := meets
  exact closed ledger event holds allows

end Action

end Systems
