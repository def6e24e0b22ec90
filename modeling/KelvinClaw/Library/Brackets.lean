import Mathlib.Data.List.Basic

/-!
# Bracketed traces

A trace of events in which some open a bracket under a key, some close one, and some end the
trace. A bracket is to be closed before the next one opens and before the trace ends, once and
under its own key.
-/

namespace Systems

/-- Which events open and close a bracket, and under which key, and which ones end a trace. -/
structure Brackets (ε κ : Type*) where
  opens : ε → Option κ
  closes : ε → Option κ
  ends : ε → Bool

namespace Brackets

variable {ε κ : Type*} [DecidableEq κ] (brackets : Brackets ε κ)

/-- The next bracket or the end of the trace. -/
def boundary (event : ε) : Bool := (brackets.opens event).isSome || brackets.ends event

def segment (rest : List ε) : List ε := rest.takeWhile fun event => !brackets.boundary event

/-- How often the events after its opening close a bracket under a key. -/
def closings (key : κ) (rest : List ε) : ℕ :=
  (brackets.segment rest).countP fun event => brackets.closes event = some key

def Matched : List ε → Prop
  | [] => True
  | event :: rest =>
    (∀ key, brackets.opens event = some key → brackets.closings key rest = 1) ∧ Matched rest

def Ends (trace : List ε) : Prop :=
  ∃ before last, trace = before ++ [last] ∧ brackets.ends last = true ∧
    ∀ event ∈ before, brackets.ends event = false

variable {brackets} {left right : List ε} {opening event : ε} {key other : κ}

/-- A continuation that closes nothing adds nothing to the brackets before it. -/
theorem closings_append (quiet : ∀ event ∈ brackets.segment right, brackets.closes event = none) :
    brackets.closings key (left ++ right) = brackets.closings key left := by
  have none : (brackets.segment right).countP
      (fun event => brackets.closes event = some key) = 0 := by
    apply List.countP_eq_zero.mpr
    intro event member
    simp [quiet event member]
  unfold closings segment at *
  rw [List.takeWhile_append]
  split_ifs with whole
  · rw [List.countP_append, none, Nat.add_zero, (List.takeWhile_prefix _).eq_of_length whole]
  · rfl

theorem matched_append (quiet : ∀ event ∈ brackets.segment right, brackets.closes event = none) :
    brackets.Matched (left ++ right) ↔ brackets.Matched left ∧ brackets.Matched right := by
  induction left with
  | nil => simp [Matched]
  | cons event rest ih =>
    rw [List.cons_append, Matched, Matched, ih, and_assoc]
    simp only [closings_append quiet]

theorem matched_snoc (opens : brackets.opens event = none) (closes : brackets.closes event = none) :
    brackets.Matched (left ++ [event]) ↔ brackets.Matched left := by
  rw [matched_append]
  · simp [Matched, opens]
  · intro other member
    obtain rfl := List.mem_singleton.mp (List.takeWhile_subset _ member)
    exact closes

omit [DecidableEq κ] in
/-- The segment before an opening is empty. -/
theorem segment_opening (opens : brackets.opens opening = some key) :
    brackets.segment (opening :: right) = [] := by
  simp [segment, boundary, opens]

theorem matched_pair (opens : brackets.opens opening = some key)
    (still : brackets.opens event = none) (closes : brackets.closes event = some other)
    (goes : brackets.ends event = false) :
    brackets.Matched (left ++ [opening, event]) ↔ brackets.Matched left ∧ other = key := by
  rw [matched_append]
  · simp [Matched, opens, still, closings, segment, boundary, goes, closes, List.countP_cons]
  · rw [segment_opening opens]
    exact fun _ => nofun

/-- A bracket that is open when the trace ends. -/
theorem not_matched_open (opens : brackets.opens opening = some key)
    (closes : brackets.closes event = none) :
    ¬ brackets.Matched (left ++ [opening, event]) := by
  rw [matched_append]
  · intro ⟨_, once, _⟩
    have member := List.countP_pos_iff.mp (Nat.lt_of_lt_of_eq Nat.one_pos (once key opens).symm)
    obtain ⟨last, within, closing⟩ := member
    obtain rfl := List.mem_singleton.mp (List.takeWhile_subset _ within)
    simp [closes] at closing
  · rw [segment_opening opens]
    exact fun _ => nofun

omit [DecidableEq κ] in
theorem ends_snoc (last : brackets.ends event = true)
    (before : ∀ event ∈ left, brackets.ends event = false) : brackets.Ends (left ++ [event]) :=
  ⟨left, event, rfl, last, before⟩

/-! ### Brackets that nothing else closes -/

variable {middle : List ε}

omit [DecidableEq κ]

/-- Each bracket of a trace is closed under its own key, and by nothing else. -/
def Settled (brackets : Brackets ε κ) : List ε → Prop
  | [] => True
  | event :: rest =>
    (∀ key, brackets.opens event = some key →
      (brackets.segment rest).filterMap brackets.closes = [key]) ∧ brackets.Settled rest

theorem segment_of_inside (inside : ∀ event ∈ left, brackets.boundary event = false) :
    brackets.segment (left ++ right) = left ++ brackets.segment right := by
  unfold segment
  rw [List.takeWhile_append_of_pos]
  intro event member
  rw [inside event member, Bool.not_false]

/-- A continuation that closes nothing settles nothing that is before it. -/
theorem settled_append (quiet : ∀ event ∈ brackets.segment right, brackets.closes event = none) :
    brackets.Settled (left ++ right) ↔ brackets.Settled left ∧ brackets.Settled right := by
  have silent : (brackets.segment right).filterMap brackets.closes = [] :=
    List.filterMap_eq_nil_iff.mpr quiet
  have closed (rest : List ε) : (brackets.segment (rest ++ right)).filterMap brackets.closes =
      (brackets.segment rest).filterMap brackets.closes := by
    unfold segment at *
    rw [List.takeWhile_append]
    split_ifs with whole
    · rw [List.filterMap_append, silent, List.append_nil,
        (List.takeWhile_prefix _).eq_of_length whole]
    · rfl
  induction left with
  | nil => simp [Settled]
  | cons event rest ih =>
    simp only [List.cons_append, Settled, closed rest, ih, and_assoc]

theorem settled_of_unopened (unopened : ∀ event ∈ left, brackets.opens event = none) :
    brackets.Settled left := by
  induction left with
  | nil => trivial
  | cons event rest ih =>
    obtain ⟨here, later⟩ := List.forall_mem_cons.mp unopened
    refine ⟨fun key opens => ?_, ih later⟩
    rw [here] at opens
    cases opens

theorem settled_snoc (opens : brackets.opens event = none) (closes : brackets.closes event = none) :
    brackets.Settled (left ++ [event]) ↔ brackets.Settled left := by
  rw [settled_append]
  · refine and_iff_left (settled_of_unopened fun other member => ?_)
    obtain rfl := List.mem_singleton.mp member
    exact opens
  · intro other member
    obtain rfl := List.mem_singleton.mp (List.takeWhile_subset _ member)
    exact closes

/-- What neither opens nor closes a bracket, nor ends the trace. -/
structure Inside (brackets : Brackets ε κ) (event : ε) : Prop where
  opens : brackets.opens event = none
  closes : brackets.closes event = none
  ends : brackets.ends event = false

theorem Inside.boundary (inside : brackets.Inside event) : brackets.boundary event = false := by
  simp [Brackets.boundary, inside.opens, inside.ends]

theorem filterMap_closes_closed (opens : brackets.closes opening = none)
    (inside : ∀ event ∈ middle, brackets.Inside event) (closes : brackets.closes event = some key) :
    (opening :: middle ++ [event]).filterMap brackets.closes = [key] := by
  have silent : middle.filterMap brackets.closes = [] :=
    List.filterMap_eq_nil_iff.mpr fun other member => (inside other member).closes
  rw [List.cons_append, List.filterMap_cons_none opens, List.filterMap_append, silent]
  simp [closes]

theorem filterMap_opens_closed (opens : brackets.opens opening = some key)
    (inside : ∀ event ∈ middle, brackets.Inside event) (still : brackets.opens event = none) :
    (opening :: middle ++ [event]).filterMap brackets.opens = [key] := by
  have silent : middle.filterMap brackets.opens = [] :=
    List.filterMap_eq_nil_iff.mpr fun other member => (inside other member).opens
  rw [List.cons_append, List.filterMap_cons_some opens, List.filterMap_append, silent]
  simp [still]

/-- A bracket that is opened, and closed once under its own key. -/
theorem settled_closed (opens : brackets.opens opening = some key)
    (inside : ∀ event ∈ middle, brackets.Inside event) (still : brackets.opens event = none)
    (goes : brackets.ends event = false) (closes : brackets.closes event = some key) :
    brackets.Settled (left ++ (opening :: middle ++ [event])) ↔ brackets.Settled left := by
  rw [settled_append]
  · refine and_iff_left ⟨fun known opened => ?_, settled_of_unopened ?_⟩
    · obtain rfl := Option.some_inj.mp (opens.symm.trans opened)
      have last : brackets.segment [event] = [event] := by
        simp [segment, boundary, still, goes]
      have silent : middle.filterMap brackets.closes = [] :=
        List.filterMap_eq_nil_iff.mpr fun other member => (inside other member).closes
      change (brackets.segment (middle ++ [event])).filterMap brackets.closes = [key]
      rw [segment_of_inside fun other member => (inside other member).boundary, last,
        List.filterMap_append, silent]
      simp [closes]
    · intro other member
      rcases List.mem_append.mp member with before | last
      · exact (inside other before).opens
      · obtain rfl := List.mem_singleton.mp last
        exact still
  · rw [List.cons_append, segment_opening opens]
    exact fun _ => nofun

theorem not_settled_unclosed (opens : brackets.opens opening = some key)
    (silent : ∀ event ∈ middle, brackets.closes event = none) :
    ¬ brackets.Settled (left ++ opening :: middle) := by
  rw [settled_append]
  · intro ⟨_, closed, _⟩
    have none : (brackets.segment middle).filterMap brackets.closes = [] :=
      List.filterMap_eq_nil_iff.mpr fun event member =>
        silent event (List.takeWhile_subset _ member)
    rw [closed key opens] at none
    cases none
  · rw [segment_opening opens]
    exact fun _ => nofun

theorem not_settled_of_mem {trace : List ε} (member : opening ∈ trace)
    (opens : brackets.opens opening = some key)
    (silent : ∀ event ∈ trace, brackets.closes event = none) : ¬ brackets.Settled trace := by
  obtain ⟨before, after, rfl⟩ := List.append_of_mem member
  exact not_settled_unclosed opens fun event later =>
    silent event (List.mem_append_right _ (List.mem_cons_of_mem _ later))

end Brackets

end Systems
