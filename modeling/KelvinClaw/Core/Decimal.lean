import KelvinClaw.Core.Text

/-!
# Decimal numbers

A number that is written out is read back, if it fits.
-/

namespace KelvinClaw.Core

theorem isDigit_of_mem_toString {n : ℕ} {c : Char} (member : c ∈ (toString n).toList) :
    c.isDigit := by
  rw [Nat.toString_eq_ofList_toDigits, String.toList_ofList] at member
  exact Nat.isDigit_of_mem_toDigits (by decide) (by decide) member

theorem not_mem_toString {n : ℕ} {c : Char} (other : c.isDigit = false) :
    c ∉ (toString n).toList := by
  intro member
  rw [isDigit_of_mem_toString member] at other
  cases other

theorem toList_toString_inj {n m : ℕ} (same : (toString n).toList = (toString m).toList) :
    n = m := by
  rw [Nat.toString_eq_ofList_toDigits, Nat.toString_eq_ofList_toDigits, String.toList_ofList,
    String.toList_ofList] at same
  rw [← @Nat.ofDigitChars_ten_toDigits n, same, Nat.ofDigitChars_ten_toDigits]

theorem parseUsize_le {chars : List Char} {n : ℕ} (reads : parseUsize chars = some n) :
    n ≤ usizeMax := by
  have bounded : ∀ (digits : List Char) (value : ℕ), value ≤ usizeMax →
      digits.foldlM (fun value c =>
        if c.isDigit then
          let next := value * 10 + (c.toNat - '0'.toNat)
          if next ≤ usizeMax then some next else none
        else none) value = some n → n ≤ usizeMax := by
    intro digits
    induction digits with
    | nil =>
      intro value fits read
      rw [← Option.some.inj read]
      exact fits
    | cons c rest ih =>
      intro value _ read
      rw [List.foldlM_cons] at read
      obtain ⟨next, here, later⟩ := Option.bind_eq_some_iff.mp read
      refine ih next ?_ later
      dsimp only at here
      split_ifs at here with digit fits
      rw [← Option.some.inj here]
      exact fits
  unfold parseUsize at reads
  dsimp only at reads
  split_ifs at reads
  exact bounded _ 0 (Nat.zero_le _) reads

theorem parseUsize_toString {n : ℕ} (fits : n ≤ usizeMax) :
    parseUsize (toString n).toList = some n := by
  have grows : ∀ (digits : List Char) (value : ℕ), value ≤ Nat.ofDigitChars 10 digits value := by
    intro digits
    induction digits with
    | nil => exact fun value => Nat.le_refl _
    | cons c rest ih =>
      intro value
      rw [Nat.ofDigitChars_cons]
      refine Nat.le_trans ?_ (ih _)
      omega
  have reads : ∀ (digits : List Char) (value : ℕ), (∀ c ∈ digits, c.isDigit) →
      Nat.ofDigitChars 10 digits value ≤ usizeMax →
      digits.foldlM (fun value c =>
        if c.isDigit then
          let next := value * 10 + (c.toNat - '0'.toNat)
          if next ≤ usizeMax then some next else none
        else none) value = some (Nat.ofDigitChars 10 digits value) := by
    intro digits
    induction digits with
    | nil => exact fun value _ _ => rfl
    | cons c rest ih =>
      intro value all below
      obtain ⟨digit, all⟩ := List.forall_mem_cons.mp all
      rw [Nat.ofDigitChars_cons, Nat.mul_comm] at below ⊢
      have here := Nat.le_trans (grows rest _) below
      simp only [List.foldlM_cons, digit, if_true, if_pos here]
      exact ih _ all below
  have digits : ∀ c ∈ Nat.toDigits 10 n, c.isDigit := fun c member =>
    Nat.isDigit_of_mem_toDigits (by decide) (by decide) member
  rw [Nat.toString_eq_ofList_toDigits, String.toList_ofList, parseUsize,
    if_neg Nat.toDigits_ne_nil, reads _ 0 digits (by rwa [Nat.ofDigitChars_ten_toDigits]),
    Nat.ofDigitChars_ten_toDigits]
  intro rest signed
  exact absurd (digits '+' (by rw [signed]; exact List.mem_cons_self)) (by decide)

end KelvinClaw.Core
