import KelvinClaw.Core.Splitting
import KelvinClaw.Scheduler.Cron

/-!
# The grammar of cron fields

A field is a list of items with commas between them. An item is a star, a value or a range, with
a step when a slash follows; white space may stand around each part, and numbers are read as
the standard library reads a `usize`. A star denotes all values, and an item with a step denotes
those at a multiple of the step from its first value. On days of the week a seven is a Sunday.

The code replaces a seven by zero before it looks at the range. So it refuses the ranges that
end at Sunday, it accepts ranges that start there, and it takes the range from 0 to 7 for
Sunday alone. Other fields are parsed as the grammar says.
-/

namespace KelvinClaw.Scheduler

open KelvinClaw.Core

theorem parseUsize_of_mem {chars : List Char} {c : Char} (member : c ∈ chars)
    (digit : c.isDigit = false) (sign : c ≠ '+') : parseUsize chars = none := by
  have stuck : ∀ {digits : List Char}, c ∈ digits → ∀ value,
      digits.foldlM (fun value c =>
        if c.isDigit then
          let next := value * 10 + (c.toNat - '0'.toNat)
          if next ≤ usizeMax then some next else none
        else none) value = none := by
    intro digits
    induction digits with
    | nil => intro member; cases member
    | cons d digits ih =>
      intro member value
      rw [List.foldlM_cons]
      rcases List.mem_cons.mp member with rfl | later
      · simp [digit]
      · split_ifs with isDigit
        · dsimp only
          split_ifs
          · exact ih later _
          · rfl
        · rfl
  unfold parseUsize
  split
  · rename_i rest
    have later : c ∈ rest := (List.mem_cons.mp member).resolve_left sign
    simp only [stuck later, ite_self]
  · simp only [stuck member, ite_self]

/-! ### The grammar -/

/-- The fields of an expression. -/
inductive CronField where
  | minutes
  | hours
  | monthDays
  | months
  | weekDays
  deriving DecidableEq, Repr

namespace CronField

def least : CronField → ℕ
  | minutes | hours | weekDays => 0
  | monthDays | months => 1

def largest : CronField → ℕ
  | minutes => 59
  | hours => 23
  | monthDays => 31
  | months => 12
  | weekDays => 7

def sundayAlias : CronField → Bool
  | weekDays => true
  | minutes | hours | monthDays | months => false

def valueOf : CronField → ℕ → ℕ
  | weekDays, v => v % 7
  | minutes, v | hours, v | monthDays, v | months, v => v

def IsValue : CronField → ℕ → Prop
  | weekDays, v => v < 7
  | field, v => field.least ≤ v ∧ v ≤ field.largest

/-- `parse_field` with the bounds of a field. -/
def parse (field : CronField) (raw : List Char) : KelvinResult (Fin (field.largest + 1) → Bool) :=
  parseField raw field.least field.largest field.sundayAlias

end CronField

inductive CronRange where
  | star
  | value (v : ℕ)
  | range (a b : ℕ)
  deriving DecidableEq, Repr

def SpellsRange (text : List Char) : CronRange → Prop
  | .star => text = ['*']
  | .value v => parseUsize text = some v
  | .range a b => ∃ left right, '-' ∉ left ∧ text = left ++ '-' :: right ∧
      parseUsize (trimChars left) = some a ∧ parseUsize (trimChars right) = some b

/-- How an item is written: its first part and its step. -/
def Spells (text : List Char) (range : CronRange) (step : ℕ) : Prop :=
  ('/' ∉ text ∧ step = 1 ∧ SpellsRange (trimChars text) range) ∨
    ∃ left right, '/' ∉ left ∧ text = left ++ '/' :: right ∧
      parseUsize (trimChars right) = some step ∧ 1 ≤ step ∧ SpellsRange (trimChars left) range

namespace CronRange

variable (field : CronField)

def first : CronRange → ℕ
  | star => field.least
  | value v => v
  | range a _ => a

def last : CronRange → ℕ
  | star => field.largest
  | value v => v
  | range _ b => b

/-- The numbers are within the bounds of the field, and in order. -/
structure WellFormed (range : CronRange) : Prop where
  least : field.least ≤ range.first field
  ordered : range.first field ≤ range.last field
  largest : range.last field ≤ field.largest

def Denotes (range : CronRange) (step v : ℕ) : Prop :=
  ∃ u, range.first field ≤ u ∧ u ≤ range.last field ∧ step ∣ u - range.first field ∧
    v = field.valueOf u

end CronRange

def IsItem (field : CronField) (text : List Char) : Prop :=
  ∃ range step, Spells text range step ∧ range.WellFormed field

/-- The parser accepts a text exactly when all that stands between its commas are items, and the
values it sets are those that the items denote. -/
structure ParsesExactly (field : CronField) (raw : List Char) : Prop where
  accepts : (∃ flags, field.parse raw = .ok flags) ↔ ∀ text ∈ raw.splitOn ',', IsItem field text
  denotes : ∀ flags, field.parse raw = .ok flags → ∀ v, field.IsValue v.val →
    (flags v = true ↔ ∃ text ∈ raw.splitOn ',', ∃ range step, Spells text range step ∧
      range.Denotes field step v.val)

/-! ### How items are written -/

theorem SpellsRange.unique {text : List Char} {range other : CronRange}
    (first : SpellsRange text range) (second : SpellsRange text other) : range = other := by
  have noStar : parseUsize ['*'] = none := by decide
  have noDash : ∀ {v}, parseUsize text = some v → '-' ∉ text := by
    intro v number dash
    rw [parseUsize_of_mem dash (by decide) (by decide)] at number
    cases number
  cases range with
  | star =>
    obtain rfl : text = ['*'] := first
    cases other with
    | star => rfl
    | value v => exact absurd (noStar.symm.trans second) (by simp)
    | range a b =>
      obtain ⟨left, right, _, split, _⟩ := second
      exact absurd (mem_of_split split) (by decide)
  | value v =>
    cases other with
    | star =>
      obtain rfl : text = ['*'] := second
      exact absurd (noStar.symm.trans first) (by simp)
    | value w => exact congrArg _ (Option.some.inj (first.symm.trans second))
    | range a b =>
      obtain ⟨left, right, _, split, _⟩ := second
      exact absurd (mem_of_split split) (noDash first)
  | range a b =>
    obtain ⟨left, right, outside, split, isFirst, isLast⟩ := first
    cases other with
    | star =>
      obtain rfl : text = ['*'] := second
      exact absurd (mem_of_split split) (by decide)
    | value w => exact absurd (mem_of_split split) (noDash second)
    | range c d =>
      obtain ⟨left', right', outside', split', isFirst', isLast'⟩ := second
      cases eq_of_splits outside split outside' split'
      cases isFirst.symm.trans isFirst'
      cases isLast.symm.trans isLast'
      rfl

theorem Spells.unique {text : List Char} {range other : CronRange} {step step' : ℕ}
    (first : Spells text range step) (second : Spells text other step') :
    range = other ∧ step = step' := by
  rcases first with ⟨plain, rfl, spells⟩ | ⟨left, right, outside, split, isStep, _, spells⟩
  · rcases second with ⟨_, rfl, spells'⟩ | ⟨left', right', _, split', _⟩
    · exact ⟨spells.unique spells', rfl⟩
    · exact absurd (mem_of_split split') plain
  · rcases second with ⟨plain, _, _⟩ | ⟨left', right', outside', split', isStep', _, spells'⟩
    · exact absurd (mem_of_split split) plain
    · cases eq_of_splits outside split outside' split'
      cases isStep.symm.trans isStep'
      exact ⟨spells.unique spells', rfl⟩

/-! ### What the code makes of an item -/

/-- `parse_value` puts zero for a seven that stands for Sunday. -/
def CronField.normalize (field : CronField) (v : ℕ) : ℕ :=
  if field.sundayAlias && v == 7 then 0 else v

namespace CronRange

variable (field : CronField)

def start : CronRange → ℕ
  | star => field.least
  | value v => field.normalize v
  | range a _ => field.normalize a

def stop : CronRange → ℕ
  | star => field.largest
  | value v => field.normalize v
  | range _ b => field.normalize b

/-- The bounds are values of the field, in order. -/
structure Accepted (range : CronRange) : Prop where
  least : field.least ≤ range.start field
  ordered : range.start field ≤ range.stop field
  largest : range.stop field ≤ field.largest

def Marks (range : CronRange) (step v : ℕ) : Prop :=
  range.start field ≤ v ∧ v ≤ range.stop field ∧ step ∣ v - range.start field

end CronRange

section Code

variable {field : CronField} {text : List Char}

theorem parseValue_eq_ok_iff {value : ℕ} :
    parseValue text field.least field.largest field.sundayAlias = .ok value ↔
      ∃ v, parseUsize text = some v ∧ value = field.normalize v ∧ field.least ≤ value ∧
        value ≤ field.largest := by
  unfold parseValue
  cases parseUsize text with
  | none => simp
  | some v =>
    simp only [Option.some.injEq, exists_eq_left']
    change (if field.normalize v < field.least ∨ field.largest < field.normalize v then _
      else Except.ok (field.normalize v)) = _ ↔ _
    by_cases outside : field.normalize v < field.least ∨ field.largest < field.normalize v
    · rw [if_pos outside]
      simp only [reduceCtorEq, false_iff, not_and]
      rintro rfl
      omega
    · rw [if_neg outside, Except.ok.injEq]
      constructor
      · rintro rfl
        exact ⟨rfl, by omega, by omega⟩
      · exact fun same => same.1.symm

theorem parseRange_eq_ok_iff {x y : ℕ} :
    parseRange text field.least field.largest field.sundayAlias = .ok (x, y) ↔
      ∃ range, SpellsRange text range ∧ x = range.start field ∧ y = range.stop field ∧
        field.least ≤ x ∧ x ≤ field.largest ∧ field.least ≤ y ∧ y ≤ field.largest := by
  have starInBounds : field.least ≤ field.largest := by cases field <;> decide
  unfold parseRange
  by_cases isStar : text = ['*']
  · subst isStar
    simp only [if_true, pure_eq_ok, Prod.mk.injEq]
    constructor
    · rintro ⟨rfl, rfl⟩
      exact ⟨.star, rfl, rfl, rfl, le_rfl, starInBounds, starInBounds, le_rfl⟩
    · rintro ⟨range, spells, rfl, rfl, -⟩
      obtain rfl := SpellsRange.unique (show SpellsRange ['*'] .star from rfl) spells
      exact ⟨rfl, rfl⟩
  · rw [if_neg isStar]
    cases split : splitOnce '-' text with
    | none =>
      have noDash := splitOnce_eq_none_iff.mp split
      simp only [bind_eq_ok, pure_eq_ok, parseValue_eq_ok_iff, Prod.mk.injEq]
      constructor
      · rintro ⟨_, ⟨v, number, rfl, low, high⟩, rfl, rfl⟩
        exact ⟨.value v, number, rfl, rfl, low, high, low, high⟩
      · rintro ⟨range, spells, rfl, rfl, low, high, -⟩
        cases range with
        | star => exact absurd spells isStar
        | value v => exact ⟨_, ⟨v, spells, rfl, low, high⟩, rfl, rfl⟩
        | range a b =>
          obtain ⟨left, right, _, split, _⟩ := spells
          exact absurd (mem_of_split split) noDash
    | some parts =>
      obtain ⟨left, right⟩ := parts
      obtain ⟨outside, rfl⟩ := splitOnce_eq_some_iff.mp split
      simp only [bind_eq_ok, pure_eq_ok, parseValue_eq_ok_iff, Prod.mk.injEq]
      constructor
      · rintro ⟨_, ⟨a, isFirst, rfl, low, high⟩, _, ⟨b, isLast, rfl, low', high'⟩, rfl, rfl⟩
        exact ⟨.range a b, ⟨left, right, outside, rfl, isFirst, isLast⟩, rfl, rfl, low, high,
          low', high'⟩
      · rintro ⟨range, spells, rfl, rfl, low, high, low', high'⟩
        cases range with
        | star => exact absurd spells isStar
        | value v =>
          -- no number has a dash
          rw [SpellsRange, parseUsize_of_mem (c := '-') (by simp) (by decide) (by decide)] at spells
          cases spells
        | range a b =>
          obtain ⟨left', right', outside', same, isFirst, isLast⟩ := spells
          cases eq_of_splits outside rfl outside' same
          exact ⟨_, ⟨a, isFirst, rfl, low, high⟩, _, ⟨b, isLast, rfl, low', high'⟩, rfl, rfl⟩

theorem parseStep_eq_ok_iff {rangeRaw : List Char} {step : ℕ} :
    parseStep text = .ok (rangeRaw, step) ↔
      ('/' ∉ text ∧ step = 1 ∧ rangeRaw = trimChars text) ∨
        ∃ left right, '/' ∉ left ∧ text = left ++ '/' :: right ∧
          parseUsize (trimChars right) = some step ∧ 1 ≤ step ∧ rangeRaw = trimChars left := by
  unfold parseStep
  cases split : splitOnce '/' text with
  | none =>
    have plain := splitOnce_eq_none_iff.mp split
    simp only [Except.ok.injEq, Prod.mk.injEq]
    constructor
    · rintro ⟨rfl, rfl⟩
      exact .inl ⟨plain, rfl, rfl⟩
    · rintro (⟨_, rfl, rfl⟩ | ⟨left, right, _, rfl, _⟩)
      · exact ⟨rfl, rfl⟩
      · exact absurd (by simp) plain
  | some parts =>
    obtain ⟨left, right⟩ := parts
    obtain ⟨outside, rfl⟩ := splitOnce_eq_some_iff.mp split
    dsimp only
    constructor
    · intro parsed
      refine .inr ⟨left, right, outside, rfl, ?_⟩
      cases number : parseUsize (trimChars right) with
      | none =>
        rw [number] at parsed
        cases parsed
      | some n =>
        rw [number] at parsed
        dsimp only at parsed
        split_ifs at parsed with zero
        obtain ⟨rfl, rfl⟩ := Prod.mk.injEq .. ▸ Except.ok.inj parsed
        exact ⟨rfl, Nat.one_le_iff_ne_zero.mpr zero, rfl⟩
    · rintro (⟨plain, _⟩ | ⟨left', right', outside', same, number, positive, rfl⟩)
      · exact absurd (by simp) plain
      · cases eq_of_splits outside rfl outside' same
        rw [number]
        dsimp only
        rw [if_neg (by omega)]

theorem parseItem_eq_ok_iff {flags after : Fin (field.largest + 1) → Bool} :
    parseItem field.least field.largest field.sundayAlias flags text = .ok after ↔
      ∃ range step, Spells text range step ∧ range.Accepted field ∧ after =
        markRange (range.stop field) step (field.largest + 1) (range.start field) flags := by
  unfold parseItem
  simp only [bind_eq_ok, Prod.exists, parseStep_eq_ok_iff, parseRange_eq_ok_iff, refuseIf_eq_ok,
    pure_eq_ok]
  constructor
  · rintro ⟨rangeRaw, step, written, _, _, ⟨range, spells, rfl, rfl, low, _, _, high⟩, _, ordered,
      rfl⟩
    refine ⟨range, step, ?_, ⟨low, not_lt.mp ordered, high⟩, rfl⟩
    rcases written with ⟨plain, isStep, rfl⟩ | ⟨left, right, outside, split, isStep, pos, rfl⟩
    · exact .inl ⟨plain, isStep, spells⟩
    · exact .inr ⟨left, right, outside, split, isStep, pos, spells⟩
  · rintro ⟨range, step, written, ⟨low, ordered, high⟩, rfl⟩
    rcases written with ⟨plain, isStep, spells⟩ | ⟨left, right, outside, split, isStep, pos, spells⟩
    · exact ⟨_, step, .inl ⟨plain, isStep, rfl⟩, _, _, ⟨range, spells, rfl, rfl, low,
        ordered.trans high, low.trans ordered, high⟩, (), not_lt.mpr ordered, rfl⟩
    · exact ⟨_, step, .inr ⟨left, right, outside, split, isStep, pos, rfl⟩, _, _, ⟨range, spells,
        rfl, rfl, low, ordered.trans high, low.trans ordered, high⟩, (), not_lt.mpr ordered, rfl⟩

theorem CronRange.marks_iff_markRange {range : CronRange} {step : ℕ} (positive : 0 < step)
    (accepted : range.Accepted field) (flags : Fin (field.largest + 1) → Bool)
    (v : Fin (field.largest + 1)) :
    markRange (range.stop field) step (field.largest + 1) (range.start field) flags v = true ↔
      flags v = true ∨ range.Marks field step v := by
  have small : field.largest < usizeMax := by cases field <;> decide
  have high := accepted.largest
  exact markRange_apply positive (by omega) (by omega) flags v

theorem Spells.positive {range : CronRange} {step : ℕ} (spells : Spells text range step) :
    0 < step := by
  rcases spells with ⟨_, rfl, _⟩ | ⟨_, _, _, _, _, positive, _⟩
  · exact Nat.one_pos
  · exact positive

variable (field) in
def Accepts (text : List Char) : Prop :=
  ∃ range step, Spells text range step ∧ range.Accepted field

variable (field) in
def MarkedBy (texts : List (List Char)) (v : ℕ) : Prop :=
  ∃ text ∈ texts, ∃ range step, Spells text range step ∧ range.Marks field step v

theorem exists_foldlM_parseItem {texts : List (List Char)}
    (flags : Fin (field.largest + 1) → Bool) :
    (∃ after, texts.foldlM (parseItem field.least field.largest field.sundayAlias) flags =
      .ok after) ↔ ∀ text ∈ texts, Accepts field text := by
  induction texts generalizing flags with
  | nil => exact ⟨fun _ => by simp, fun _ => ⟨flags, rfl⟩⟩
  | cons text texts ih =>
    rw [List.foldlM_cons, List.forall_mem_cons]
    constructor
    · rintro ⟨after, ran⟩
      obtain ⟨first, here, later⟩ := bind_eq_ok.mp ran
      obtain ⟨range, step, spells, accepted, -⟩ := parseItem_eq_ok_iff.mp here
      exact ⟨⟨range, step, spells, accepted⟩, (ih first).mp ⟨after, later⟩⟩
    · rintro ⟨⟨range, step, spells, accepted⟩, rest⟩
      have here : parseItem field.least field.largest field.sundayAlias flags text = .ok _ :=
        parseItem_eq_ok_iff.mpr ⟨range, step, spells, accepted, rfl⟩
      obtain ⟨after, later⟩ := (ih _).mpr rest
      exact ⟨after, bind_eq_ok.mpr ⟨_, here, later⟩⟩

theorem foldlM_parseItem_apply {texts : List (List Char)}
    {flags after : Fin (field.largest + 1) → Bool}
    (ran : texts.foldlM (parseItem field.least field.largest field.sundayAlias) flags = .ok after)
    (v : Fin (field.largest + 1)) :
    after v = true ↔ flags v = true ∨ MarkedBy field texts v := by
  induction texts generalizing flags with
  | nil =>
    obtain rfl : flags = after := Except.ok.inj ran
    simp [MarkedBy]
  | cons text texts ih =>
    rw [List.foldlM_cons] at ran
    obtain ⟨first, here, later⟩ := bind_eq_ok.mp ran
    obtain ⟨range, step, spells, accepted, rfl⟩ := parseItem_eq_ok_iff.mp here
    rw [ih later, CronRange.marks_iff_markRange spells.positive accepted, or_assoc]
    refine or_congr_right ?_
    -- an item is written in one way, so the loop marks what any reading of it marks
    have head : range.Marks field step v ↔
        ∃ range step, Spells text range step ∧ range.Marks field step v := by
      constructor
      · exact fun marks => ⟨range, step, spells, marks⟩
      · rintro ⟨range', step', spells', marks⟩
        obtain ⟨rfl, rfl⟩ := spells.unique spells'
        exact marks
    rw [head, MarkedBy, MarkedBy, List.exists_mem_cons_iff]

theorem isWhitespace_of_trimChars {raw : List Char} (blank : trimChars raw = []) {c : Char}
    (member : c ∈ raw) : isWhitespace c = true := by
  have kept := List.rdropWhile_eq_nil_iff.mp blank
  have nothing : raw.dropWhile isWhitespace = [] := by
    by_contra nonempty
    have first := List.head_dropWhile_not isWhitespace nonempty
    rw [kept _ (List.head_mem nonempty)] at first
    cases first
  exact List.dropWhile_eq_nil_iff.mp nothing c member

/-- A text without anything but white space has one part, which is no item. -/
theorem not_accepts_of_blank {raw : List Char} (blank : trimChars raw = []) :
    ¬ ∀ text ∈ raw.splitOn ',', Accepts field text := by
  have absent : ∀ c, isWhitespace c = false → c ∉ raw := by
    intro c visible member
    rw [isWhitespace_of_trimChars blank member] at visible
    cases visible
  rw [List.splitOn_eq_singleton (absent ',' (by decide))]
  intro all
  obtain ⟨range, step, spells, -⟩ := all raw List.mem_cons_self
  rcases spells with ⟨_, _, spells⟩ | ⟨left, right, _, split, _⟩
  · rw [blank] at spells
    cases range with
    | star => cases spells
    | value v => cases spells
    | range a b =>
      obtain ⟨left, right, _, split, _⟩ := spells
      exact absurd split.symm (by simp)
  · exact absent '/' (by decide) (by simp [split])

theorem CronField.parse_eq_ok_iff {raw : List Char} {flags : Fin (field.largest + 1) → Bool} :
    field.parse raw = .ok flags ↔
      (∀ text ∈ raw.splitOn ',', Accepts field text) ∧
        ∀ v, flags v = true ↔ MarkedBy field (raw.splitOn ',') v := by
  unfold CronField.parse parseField
  split_ifs with blank
  · simp only [false_iff, not_and]
    exact fun all => absurd all (not_accepts_of_blank blank)
  · constructor
    · intro ran
      refine ⟨(exists_foldlM_parseItem _).mp ⟨flags, ran⟩, fun v => ?_⟩
      simpa using foldlM_parseItem_apply ran v
    · rintro ⟨all, marked⟩
      obtain ⟨after, ran⟩ := (exists_foldlM_parseItem fun _ => false).mpr all
      rw [ran, Except.ok.injEq]
      funext v
      rw [Bool.eq_iff_iff, marked, foldlM_parseItem_apply ran]
      simp

theorem CronField.exists_parse_iff {raw : List Char} :
    (∃ flags, field.parse raw = .ok flags) ↔ ∀ text ∈ raw.splitOn ',', Accepts field text := by
  constructor
  · rintro ⟨flags, parsed⟩
    exact (CronField.parse_eq_ok_iff.mp parsed).1
  · intro all
    obtain ⟨flags, ran⟩ := (@exists_foldlM_parseItem field _ fun _ => false).mpr all
    refine ⟨flags, CronField.parse_eq_ok_iff.mpr ⟨all, fun v => ?_⟩⟩
    simpa using foldlM_parseItem_apply ran v

end Code

/-! ### Fields without days of the week -/

section Others

variable {field : CronField} (others : field ≠ .weekDays) {range : CronRange}
include others

theorem CronField.normalize_of_ne (v : ℕ) : field.normalize v = v := by
  cases field <;> first | rfl | exact absurd rfl others

theorem CronField.valueOf_of_ne (v : ℕ) : field.valueOf v = v := by
  cases field <;> first | rfl | exact absurd rfl others

theorem CronRange.start_of_ne : range.start field = range.first field := by
  cases range <;> simp [start, first, CronField.normalize_of_ne others]

theorem CronRange.stop_of_ne : range.stop field = range.last field := by
  cases range <;> simp [stop, last, CronField.normalize_of_ne others]

theorem accepts_iff_isItem {text : List Char} : Accepts field text ↔ IsItem field text := by
  have same : ∀ range : CronRange, range.Accepted field ↔ range.WellFormed field := by
    intro range
    constructor
    · rintro ⟨low, ordered, high⟩
      rw [CronRange.start_of_ne others] at low ordered
      rw [CronRange.stop_of_ne others] at ordered high
      exact ⟨low, ordered, high⟩
    · rintro ⟨low, ordered, high⟩
      rw [← CronRange.start_of_ne others] at low ordered
      rw [← CronRange.stop_of_ne others] at ordered high
      exact ⟨low, ordered, high⟩
  simp only [Accepts, IsItem, same]

theorem CronRange.marks_iff_denotes_of_ne {step v : ℕ} :
    range.Marks field step v ↔ range.Denotes field step v := by
  rw [Marks, Denotes, start_of_ne others, stop_of_ne others]
  simp only [CronField.valueOf_of_ne others]
  constructor
  · rintro ⟨low, high, divides⟩
    exact ⟨v, low, high, divides, rfl⟩
  · rintro ⟨_, low, high, divides, rfl⟩
    exact ⟨low, high, divides⟩

theorem parsesExactly_of_ne (raw : List Char) : ParsesExactly field raw := by
  constructor
  · rw [CronField.exists_parse_iff]
    simp only [accepts_iff_isItem others]
  · intro flags parsed v _
    simp only [(CronField.parse_eq_ok_iff.mp parsed).2 v, MarkedBy,
      CronRange.marks_iff_denotes_of_ne others]

end Others

/-! ### Days of the week -/

def StartsAtSunday (text : List Char) : Prop := ∃ b step, Spells text (.range 7 b) step ∧ b < 7

def EndsAtSunday (text : List Char) : Prop :=
  ∃ a step, Spells text (.range a 7) step ∧ 1 ≤ a ∧ a < 7

/-- Ranges from and to Sunday make no difference in a field of days of the week: a part that
touches no Sunday is no item, or there are ranges of both kinds, or of neither kind; and then
every day of a range from 0 to 7 is a day of another item. -/
def SundayAgrees (raw : List Char) : Prop :=
  (∃ text ∈ raw.splitOn ',', ¬ IsItem .weekDays text ∧ ¬ StartsAtSunday text) ∨
  ((∃ text ∈ raw.splitOn ',', StartsAtSunday text) ∧
    ∃ text ∈ raw.splitOn ',', EndsAtSunday text) ∨
  ((∀ text ∈ raw.splitOn ',', ¬ StartsAtSunday text ∧ ¬ EndsAtSunday text) ∧
    ∀ text ∈ raw.splitOn ',', ∀ step, Spells text (.range 0 7) step →
      ∀ day, 1 ≤ day → day < 7 → step ∣ day →
        ∃ other ∈ raw.splitOn ',', ∃ range step', Spells other range step' ∧
          range ≠ .range 0 7 ∧ range.Denotes .weekDays step' day)

section WeekDays

variable {range : CronRange} {text : List Char} {step v : ℕ}

theorem CronField.normalize_weekDays (v : ℕ) :
    CronField.weekDays.normalize v = if v = 7 then 0 else v := by
  simp [normalize, sundayAlias]

theorem CronRange.accepted_weekDays_iff : range.Accepted .weekDays ↔
    (range.WellFormed .weekDays ∧ ¬ ∃ a, range = .range a 7 ∧ 1 ≤ a ∧ a < 7) ∨
      ∃ b, range = .range 7 b ∧ b < 7 := by
  have unfolded : range.Accepted .weekDays ↔
      range.start .weekDays ≤ range.stop .weekDays ∧ range.stop .weekDays ≤ 7 :=
    ⟨fun ⟨_, ordered, high⟩ => ⟨ordered, high⟩,
      fun ⟨ordered, high⟩ => ⟨Nat.zero_le _, ordered, high⟩⟩
  have wellFormed : range.WellFormed .weekDays ↔
      range.first .weekDays ≤ range.last .weekDays ∧ range.last .weekDays ≤ 7 :=
    ⟨fun ⟨_, ordered, high⟩ => ⟨ordered, high⟩,
      fun ⟨ordered, high⟩ => ⟨Nat.zero_le _, ordered, high⟩⟩
  rw [unfolded, wellFormed]
  cases range with
  | star => simp [start, stop, first, last, CronField.least, CronField.largest]
  | value v =>
    simp only [start, stop, first, last, CronField.normalize_weekDays]
    split_ifs <;> simp_all
  | range a b =>
    have ends : (∃ a', CronRange.range a b = .range a' 7 ∧ 1 ≤ a' ∧ a' < 7) ↔
        b = 7 ∧ 1 ≤ a ∧ a < 7 := by
      simp only [CronRange.range.injEq]
      constructor
      · rintro ⟨_, ⟨rfl, rfl⟩, bounds⟩
        exact ⟨rfl, bounds⟩
      · rintro ⟨rfl, bounds⟩
        exact ⟨a, ⟨rfl, rfl⟩, bounds⟩
    have starts : (∃ b', CronRange.range a b = .range 7 b' ∧ b' < 7) ↔ a = 7 ∧ b < 7 := by
      simp only [CronRange.range.injEq]
      constructor
      · rintro ⟨_, ⟨rfl, rfl⟩, early⟩
        exact ⟨rfl, early⟩
      · rintro ⟨rfl, early⟩
        exact ⟨b, ⟨rfl, rfl⟩, early⟩
    rw [ends, starts]
    simp only [start, stop, first, last, CronField.normalize_weekDays]
    split_ifs <;> omega

theorem accepts_weekDays_iff : Accepts .weekDays text ↔
    (IsItem .weekDays text ∧ ¬ EndsAtSunday text) ∨ StartsAtSunday text := by
  constructor
  · rintro ⟨range, step, spells, accepted⟩
    rcases CronRange.accepted_weekDays_iff.mp accepted with ⟨wellFormed, ends⟩ | ⟨b, rfl, early⟩
    · refine .inl ⟨⟨range, step, spells, wellFormed⟩, ?_⟩
      rintro ⟨a, step', spells', low, high⟩
      obtain ⟨rfl, -⟩ := spells.unique spells'
      exact ends ⟨a, rfl, low, high⟩
    · exact .inr ⟨b, step, spells, early⟩
  · rintro (⟨⟨range, step, spells, wellFormed⟩, ends⟩ | ⟨b, step, spells, early⟩)
    · refine ⟨range, step, spells, CronRange.accepted_weekDays_iff.mpr (.inl ⟨wellFormed, ?_⟩)⟩
      rintro ⟨a, rfl, low, high⟩
      exact ends ⟨a, step, spells, low, high⟩
    · exact ⟨_, step, spells, CronRange.accepted_weekDays_iff.mpr (.inr ⟨b, rfl, early⟩)⟩

theorem StartsAtSunday.not_isItem (starts : StartsAtSunday text) : ¬ IsItem .weekDays text := by
  rintro ⟨range, step, spells, wellFormed⟩
  obtain ⟨b, step', spells', early⟩ := starts
  obtain ⟨rfl, -⟩ := spells.unique spells'
  exact absurd wellFormed.ordered (not_le.mpr early)

theorem EndsAtSunday.isItem (ends : EndsAtSunday text) : IsItem .weekDays text := by
  obtain ⟨a, step, spells, low, high⟩ := ends
  exact ⟨_, step, spells, Nat.zero_le _, high.le, le_rfl⟩

theorem CronRange.marks_wholeWeek_iff : (CronRange.range 0 7).Marks .weekDays step v ↔ v = 0 := by
  simp only [Marks, start, stop, CronField.normalize_weekDays]
  constructor
  · exact fun marks => Nat.le_zero.mp marks.2.1
  · rintro rfl
    exact ⟨le_rfl, le_rfl, dvd_zero _⟩

theorem CronRange.denotes_wholeWeek_iff (day : v < 7) :
    (CronRange.range 0 7).Denotes .weekDays step v ↔ v = 0 ∨ (1 ≤ v ∧ step ∣ v) := by
  simp only [Denotes, first, last, CronField.valueOf]
  constructor
  · rintro ⟨u, _, high, divides, rfl⟩
    rcases Nat.lt_or_ge u 7 with small | large
    · rw [Nat.mod_eq_of_lt small]
      rcases Nat.eq_zero_or_pos u with zero | pos
      · exact .inl zero
      · exact .inr ⟨pos, divides⟩
    · exact .inl (by omega)
  · rintro (rfl | ⟨_, divides⟩)
    · exact ⟨0, le_rfl, Nat.zero_le _, dvd_zero _, rfl⟩
    · exact ⟨v, Nat.zero_le _, day.le, divides, (Nat.mod_eq_of_lt day).symm⟩

theorem CronRange.marks_iff_denotes (wellFormed : range.WellFormed .weekDays)
    (ends : ¬ ∃ a, range = .range a 7 ∧ 1 ≤ a ∧ a < 7) (part : range ≠ .range 0 7) (day : v < 7) :
    range.Marks .weekDays step v ↔ range.Denotes .weekDays step v := by
  have high := wellFormed.largest
  have ordered := wellFormed.ordered
  cases range with
  | star =>
    simp only [Marks, Denotes, start, stop, first, last, CronField.valueOf]
    constructor
    · rintro ⟨low, high, divides⟩
      exact ⟨v, low, high, divides, (Nat.mod_eq_of_lt day).symm⟩
    · rintro ⟨u, low, high, divides, rfl⟩
      rcases Nat.lt_or_ge u 7 with small | large
      · rw [Nat.mod_eq_of_lt small]
        exact ⟨low, high, divides⟩
      · -- a seven is Sunday, which the code has set as zero
        obtain rfl : u = 7 := le_antisymm high large
        exact ⟨Nat.zero_le _, Nat.zero_le _, by simp⟩
  | value w =>
    simp only [Marks, Denotes, start, stop, first, last, CronField.valueOf,
      CronField.normalize_weekDays] at high ⊢
    have isDay : (if w = 7 then 0 else w) = w % 7 := by
      split_ifs with sunday
      · rw [sunday]
      · exact (Nat.mod_eq_of_lt (by simp only [CronField.largest] at high; omega)).symm
    rw [isDay]
    constructor
    · rintro ⟨low, high, -⟩
      exact ⟨w, le_rfl, le_rfl, by simp, le_antisymm high low⟩
    · rintro ⟨u, low, high, -, rfl⟩
      obtain rfl := le_antisymm low high
      exact ⟨le_rfl, le_rfl, by simp⟩
  | range a b =>
    simp only [Marks, Denotes, start, stop, first, last, CronField.valueOf,
      CronField.normalize_weekDays, CronField.largest] at high ordered ⊢
    rcases Nat.lt_or_ge b 7 with small | large
    · rw [if_neg (by omega), if_neg (by omega)]
      constructor
      · rintro ⟨low, high, divides⟩
        exact ⟨v, low, high, divides, (Nat.mod_eq_of_lt day).symm⟩
      · rintro ⟨u, low, high, divides, rfl⟩
        rw [Nat.mod_eq_of_lt (by omega)]
        exact ⟨low, high, divides⟩
    · -- only Sunday to Sunday is left
      obtain rfl : b = 7 := le_antisymm high large
      have sunday : a = 7 := by
        by_contra other
        rcases Nat.eq_zero_or_pos a with rfl | pos
        · exact part rfl
        · exact ends ⟨a, rfl, pos, by omega⟩
      subst sunday
      simp only [if_true]
      constructor
      · rintro ⟨-, high, -⟩
        exact ⟨7, le_rfl, le_rfl, by simp, by omega⟩
      · rintro ⟨u, low, high, -, rfl⟩
        obtain rfl := le_antisymm low high
        exact ⟨by simp, by simp, by simp⟩

/-- Without ranges from or to Sunday the code accepts the fields of the grammar, and sets what
they denote when the days of the ranges from 0 to 7 are days of other items. -/
theorem parsesExactly_iff_of_none {raw : List Char}
    (plain : ∀ text ∈ raw.splitOn ',', ¬ StartsAtSunday text ∧ ¬ EndsAtSunday text)
    (items : ∀ text ∈ raw.splitOn ',', IsItem .weekDays text) :
    ParsesExactly .weekDays raw ↔
      ∀ text ∈ raw.splitOn ',', ∀ step, Spells text (.range 0 7) step →
        ∀ day, 1 ≤ day → day < 7 → step ∣ day →
          ∃ other ∈ raw.splitOn ',', ∃ range step', Spells other range step' ∧
            range ≠ .range 0 7 ∧ range.Denotes .weekDays step' day := by
  have accepted : ∀ text ∈ raw.splitOn ',', Accepts .weekDays text := fun text member =>
    accepts_weekDays_iff.mpr (.inl ⟨items text member, (plain text member).2⟩)
  have sameMarks : ∀ {text : List Char} {range : CronRange} {step v : ℕ},
      text ∈ raw.splitOn ',' → Spells text range step → range ≠ .range 0 7 → v < 7 →
        (range.Marks .weekDays step v ↔ range.Denotes .weekDays step v) := by
    intro text range step v member spells part day
    obtain ⟨range', step', spells', wellFormed⟩ := items text member
    obtain ⟨rfl, rfl⟩ := spells.unique spells'
    refine CronRange.marks_iff_denotes wellFormed ?_ part day
    rintro ⟨a, rfl, low, high⟩
    exact (plain text member).2 ⟨a, step, spells, low, high⟩
  constructor
  · intro exact text member step spells day low high divides
    obtain ⟨flags, parsed⟩ := exact.accepts.mpr items
    have inBounds : day < CronField.weekDays.largest + 1 := Nat.lt_succ_of_lt high
    have denoted := (exact.denotes flags parsed ⟨day, inBounds⟩ high).mpr
      ⟨text, member, _, step, spells,
        (CronRange.denotes_wholeWeek_iff high).mpr (.inr ⟨low, divides⟩)⟩
    obtain ⟨other, isPart, range, step', spells', marks⟩ :=
      ((CronField.parse_eq_ok_iff.mp parsed).2 _).mp denoted
    have part : range ≠ .range 0 7 := by
      -- the code sets Sunday alone for such a range
      rintro rfl
      exact absurd (CronRange.marks_wholeWeek_iff.mp marks) (Nat.pos_iff_ne_zero.mp low)
    exact ⟨other, isPart, range, step', spells', part,
      (sameMarks isPart spells' part high).mp marks⟩
  · intro covered
    refine ⟨iff_of_true (CronField.exists_parse_iff.mpr accepted) items, ?_⟩
    intro flags parsed v day
    rw [(CronField.parse_eq_ok_iff.mp parsed).2 v]
    constructor
    · rintro ⟨text, member, range, step, spells, marks⟩
      refine ⟨text, member, range, step, spells, ?_⟩
      by_cases part : range = .range 0 7
      · subst part
        have sunday := CronRange.marks_wholeWeek_iff.mp marks
        exact (CronRange.denotes_wholeWeek_iff day).mpr (.inl sunday)
      · exact (sameMarks member spells part day).mp marks
    · rintro ⟨text, member, range, step, spells, denotes⟩
      by_cases part : range = .range 0 7
      · subst part
        rcases (CronRange.denotes_wholeWeek_iff day).mp denotes with sunday | ⟨low, divides⟩
        · exact ⟨text, member, _, step, spells, CronRange.marks_wholeWeek_iff.mpr sunday⟩
        · obtain ⟨other, isPart, range, step', spells', part, denotes'⟩ :=
            covered text member step spells v.val low day divides
          exact ⟨other, isPart, range, step', spells',
            (sameMarks isPart spells' part day).mpr denotes'⟩
      · exact ⟨text, member, range, step, spells, (sameMarks member spells part day).mpr denotes⟩

theorem parsesExactly_weekDays_iff (raw : List Char) :
    ParsesExactly .weekDays raw ↔ SundayAgrees raw := by
  by_cases malformed : ∃ text ∈ raw.splitOn ',', ¬ IsItem .weekDays text ∧ ¬ StartsAtSunday text
  · -- such a text is refused by the code and by the grammar
    obtain ⟨text, member, noItem, noStart⟩ := malformed
    have refused : ¬ Accepts .weekDays text := by
      rw [accepts_weekDays_iff]
      exact fun accepted => accepted.elim (fun item => noItem item.1) noStart
    refine iff_of_true ⟨?_, ?_⟩ (.inl ⟨text, member, noItem, noStart⟩)
    · rw [CronField.exists_parse_iff]
      exact iff_of_false (fun all => refused (all text member)) fun all => noItem (all text member)
    · intro flags parsed
      exact absurd ((CronField.parse_eq_ok_iff.mp parsed).1 text member) refused
  · have itemOrStart : ∀ text ∈ raw.splitOn ',', IsItem .weekDays text ∨ StartsAtSunday text := by
      intro text member
      by_contra neither
      exact malformed ⟨text, member, not_or.mp neither⟩
    have agrees : SundayAgrees raw ↔ _ := or_iff_right malformed
    rw [agrees]
    by_cases starts : ∃ text ∈ raw.splitOn ',', StartsAtSunday text
    · obtain ⟨startText, isStart, start⟩ := starts
      have noItems : ¬ ∀ text ∈ raw.splitOn ',', IsItem .weekDays text := fun all =>
        start.not_isItem (all startText isStart)
      by_cases ends : ∃ text ∈ raw.splitOn ',', EndsAtSunday text
      · -- the code refuses the second range, the grammar the first one
        obtain ⟨endText, isEnd, ending⟩ := ends
        have refused : ¬ ∀ text ∈ raw.splitOn ',', Accepts .weekDays text := by
          intro all
          rcases accepts_weekDays_iff.mp (all endText isEnd) with ⟨_, noEnd⟩ | start'
          · exact noEnd ending
          · exact start'.not_isItem ending.isItem
        refine iff_of_true ⟨?_, ?_⟩ (.inl ⟨⟨startText, isStart, start⟩, endText, isEnd, ending⟩)
        · rw [CronField.exists_parse_iff]
          exact iff_of_false refused noItems
        · intro flags parsed
          exact absurd (CronField.parse_eq_ok_iff.mp parsed).1 refused
      · -- the code alone accepts
        refine iff_of_false (fun exact => noItems (exact.accepts.mp ?_)) ?_
        · rw [CronField.exists_parse_iff]
          intro text member
          rw [accepts_weekDays_iff]
          exact (itemOrStart text member).imp_left fun item =>
            ⟨item, fun ending => ends ⟨text, member, ending⟩⟩
        · rintro (⟨-, ends'⟩ | ⟨plain, -⟩)
          · exact ends ends'
          · exact (plain startText isStart).1 start
    · have items : ∀ text ∈ raw.splitOn ',', IsItem .weekDays text := fun text member =>
        (itemOrStart text member).resolve_right fun start => starts ⟨text, member, start⟩
      by_cases ends : ∃ text ∈ raw.splitOn ',', EndsAtSunday text
      · -- the grammar alone accepts
        obtain ⟨endText, isEnd, ending⟩ := ends
        refine iff_of_false (fun exact => ?_) ?_
        · have accepted := CronField.exists_parse_iff.mp (exact.accepts.mpr items) endText isEnd
          rcases accepts_weekDays_iff.mp accepted with ⟨_, noEnd⟩ | start
          · exact noEnd ending
          · exact starts ⟨endText, isEnd, start⟩
        · rintro (⟨starts', -⟩ | ⟨plain, -⟩)
          · exact starts starts'
          · exact (plain endText isEnd).2 ending
      · have plain : ∀ text ∈ raw.splitOn ',', ¬ StartsAtSunday text ∧ ¬ EndsAtSunday text :=
          fun text member =>
            ⟨fun start => starts ⟨text, member, start⟩, fun ending => ends ⟨text, member, ending⟩⟩
        rw [parsesExactly_iff_of_none plain items, or_iff_right fun both => starts both.1,
          and_iff_right plain]

end WeekDays

/-- The parser of a field is exact, except on days of the week whose ranges from and to Sunday do
not agree. -/
theorem parseField_exact_iff (field : CronField) (raw : List Char) :
    ParsesExactly field raw ↔ (field = .weekDays → SundayAgrees raw) := by
  by_cases week : field = .weekDays
  · subst week
    rw [parsesExactly_weekDays_iff]
    exact ⟨fun agrees _ => agrees, fun agrees => agrees rfl⟩
  · exact iff_of_true (parsesExactly_of_ne week raw) fun same => absurd same week

/-- The range from Friday to Sunday is an item, and the code refuses it. -/
theorem friday_to_sunday_is_refused : ¬ ParsesExactly .weekDays "5-7".toList := by
  intro exact
  have refused : ¬ ∃ flags, CronField.weekDays.parse "5-7".toList = .ok flags := by
    rintro ⟨flags, parsed⟩
    have isError : (CronField.weekDays.parse "5-7".toList).isOk = false := by decide
    rw [parsed] at isError
    cases isError
  refine refused (exact.accepts.mpr ?_)
  have single : "5-7".toList.splitOn ',' = ["5-7".toList] := by decide
  rw [single]
  intro text member
  obtain rfl := List.mem_singleton.mp member
  refine ⟨.range 5 7, 1, .inl ⟨by decide, rfl, ?_⟩, by decide, by decide, by decide⟩
  exact ⟨['5'], ['7'], by decide, by decide, by decide, by decide⟩

end KelvinClaw.Scheduler
