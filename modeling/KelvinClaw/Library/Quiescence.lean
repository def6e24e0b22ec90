import Mathlib.Data.List.Count
import KelvinClaw.Library.TransitionSystem

/-!
# Systems that come to rest

A measure counts the steps that the parties of a system have ahead of them: each step of a party
is one less, and the other steps that are allowed leave the measure alone. Then no interleaving
has more steps of the parties than the measure allows, and in every state they can be run until
none of them is enabled.
-/

namespace Systems.TransitionSystem

variable {σ ℓ : Type*} {sys : TransitionSystem σ ℓ}

/-- No label of the parties is enabled. -/
def Quiescent (sys : TransitionSystem σ ℓ) (ofParty : ℓ → Bool) (s : σ) : Prop :=
  ∀ label, ofParty label → sys.step s label = none

/-- While the labels are allowed ones an invariant is kept, and every step of a party is counted
off the measure. -/
structure Measured (sys : TransitionSystem σ ℓ) (allowed ofParty : ℓ → Bool) (Inv : σ → Prop)
    (measure : σ → ℕ) : Prop where
  allowed_of_ofParty : ∀ label, ofParty label → allowed label
  kept : ∀ s label t, Inv s → allowed label → sys.step s label = some t → Inv t
  counted : ∀ s label t, Inv s → allowed label → sys.step s label = some t →
    measure t + (ofParty label).toNat = measure s

variable {allowed ofParty : ℓ → Bool} {Inv : σ → Prop} {measure : σ → ℕ} {s t : σ}

/-- Along a run the steps of the parties are counted off the measure. -/
theorem Measured.run (measured : sys.Measured allowed ofParty Inv measure) {labels : List ℓ}
    (inv : Inv s) (all : ∀ label ∈ labels, allowed label)
    (follows : sys.run? (fun _ _ => True) s labels = some t) :
    Inv t ∧ measure t + labels.countP ofParty = measure s := by
  induction labels generalizing s with
  | nil =>
    obtain rfl := Option.some_inj.mp follows
    exact ⟨inv, rfl⟩
  | cons label rest ih =>
    rw [run?, if_pos trivial] at follows
    obtain ⟨u, moves, follows⟩ := Option.bind_eq_some_iff.mp follows
    obtain ⟨first, later⟩ := List.forall_mem_cons.mp all
    obtain ⟨ends, counted⟩ := ih (measured.kept s label u inv first moves) later follows
    refine ⟨ends, ?_⟩
    rw [← measured.counted s label u inv first moves, ← counted, List.countP_cons, Nat.add_assoc]
    cases ofParty label <;> rfl

/-- The parties can be run until they rest. -/
theorem Measured.exists_quiescent (measured : sys.Measured allowed ofParty Inv measure) (s : σ)
    (inv : Inv s) : ∃ labels t, (∀ label ∈ labels, allowed label) ∧
      sys.run? (fun _ _ => True) s labels = some t ∧ Inv t ∧ sys.Quiescent ofParty t := by
  by_cases rests : sys.Quiescent ofParty s
  · exact ⟨[], s, nofun, rfl, inv, rests⟩
  · obtain ⟨label, party, moves⟩ : ∃ label, ofParty label ∧ sys.step s label ≠ none := by
      simpa [Quiescent] using rests
    obtain ⟨u, moves⟩ := Option.ne_none_iff_exists'.mp moves
    have first := measured.allowed_of_ofParty label party
    have less : measure u < measure s := by
      have one := measured.counted s label u inv first moves
      rw [party, Bool.toNat_true] at one
      omega
    obtain ⟨labels, t, later, follows, ends, quiescent⟩ :=
      exists_quiescent measured u (measured.kept s label u inv first moves)
    refine ⟨label :: labels, t, List.forall_mem_cons.mpr ⟨first, later⟩, ?_, ends, quiescent⟩
    simp only [run?, if_true, moves, Option.bind_some, follows]
termination_by measure s
decreasing_by exact less

end Systems.TransitionSystem
