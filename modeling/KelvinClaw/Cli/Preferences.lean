import KelvinClaw.Core.Splitting
import KelvinClaw.Library.KeyedLists
import KelvinClaw.Library.Lines

/-!
# The preferences file

The launcher keeps its preferences in a file of settings, one on a line. A reader of the file skips
comments and takes quotes off. The writer writes a value as it is, so not every value is read back:
the part after a number sign is a comment, and white space and quotes around a value are lost. The
one preference that is saved has neither.

Errors of the file system are left out, and a file that cannot be decoded; such a file is neither
read nor written.
-/

namespace KelvinClaw.Cli

open KelvinClaw.Core Systems

/-! ### The source -/

def exportMark : List Char := "export ".toList

/-- `strip_prefix("export ")`, of a text that has it. -/
def stripExport (stripped : List Char) : List Char :=
  if exportMark.isPrefixOf stripped then stripped.drop exportMark.length else stripped

/-- A quote is one byte, so a text that both begins and ends with one has two bytes at least exactly
where it has two characters. -/
def Wrapped (value : List Char) : Prop :=
  2 ≤ value.length ∧
    (value.head? = some '"' ∧ value.getLast? = some '"' ∨
      value.head? = some '\'' ∧ value.getLast? = some '\'')

instance (value : List Char) : Decidable (Wrapped value) :=
  inferInstanceAs (Decidable (_ ∧ _))

def stripWrappingQuotes (value : List Char) : List Char :=
  if Wrapped value then value.tail.dropLast else value

def readLine (line : List Char) : Option (List Char × List Char) :=
  let stripped := trimChars (line.takeWhile (· ≠ '#'))
  if stripped = [] then none
  else
    (splitOnce '=' (stripExport stripped)).map fun found =>
      (trimChars found.1, stripWrappingQuotes (trimChars found.2))

/-- `None` is a file that does not exist. -/
def loadEnvValue (file : Option String) (key : String) : Option String :=
  file.bind fun content =>
    (lookupBy readLine key.toList (lines content.toList)).map String.ofList

def setsKey (key line : List Char) : Bool :=
  match splitOnce '=' (stripExport (line.dropWhile isWhitespace)) with
  | some (foundKey, _) => trimChars foundKey = key
  | none => false

def setting (key value : List Char) : List Char := key ++ '=' :: value

def saveEnvValue (file : Option String) (key value : String) : String :=
  let existing := (file.getD "").toList
  let saved := assignBy (setsKey key.toList) (setting key.toList value.toList) (lines existing)
  String.ofList (if saved = [] then [] else joinLines saved ++ ['\n'])

inductive InterfaceMode where
  | cli
  | tui
  deriving DecidableEq, Repr

def InterfaceMode.asStr : InterfaceMode → String
  | .cli => "cli"
  | .tui => "tui"

def normalizeInterfaceMode (value : String) : Option InterfaceMode :=
  match toAsciiLowercase (trim value) with
  | "cli" => some .cli
  | "tui" => some .tui
  | _ => none

def interfaceModeEnvVar : String := "KELVIN_INTERFACE_MODE"

def saveInterfaceMode (file : Option String) (mode : InterfaceMode) : String :=
  saveEnvValue file interfaceModeEnvVar mode.asStr

/-! ### Lines -/

section Lines

variable {line before rest key value : List Char}

theorem not_mem_exportMark : '=' ∉ exportMark ∧ '#' ∉ exportMark := by decide

theorem stripExport_subset : stripExport line ⊆ line := by
  rw [stripExport]
  split_ifs
  · exact List.drop_subset _ _
  · exact List.Subset.refl _

theorem isPrefixOf_append {mark : List Char} (plain : '=' ∉ mark) :
    mark.isPrefixOf (before ++ '=' :: rest) = mark.isPrefixOf before := by
  rw [Bool.eq_iff_iff, List.isPrefixOf_iff_prefix, List.isPrefixOf_iff_prefix]
  refine ⟨fun marked => ?_, fun marked => marked.trans (List.prefix_append _ _)⟩
  rcases Nat.lt_or_ge before.length mark.length with longer | shorter
  · -- A longer one would contain the equals sign.
    have whole : before ++ ['='] <+: before ++ '=' :: rest :=
      ⟨rest, by rw [List.append_assoc, List.singleton_append]⟩
    have inside := List.prefix_of_prefix_length_le whole marked
      (by rw [List.length_append, List.length_singleton]; exact longer)
    exact absurd (inside.subset (List.mem_append_right _ List.mem_cons_self)) plain
  · exact List.prefix_of_prefix_length_le marked (List.prefix_append _ _) shorter

theorem stripExport_append :
    stripExport (before ++ '=' :: rest) = stripExport before ++ '=' :: rest := by
  rw [stripExport, stripExport, isPrefixOf_append not_mem_exportMark.1]
  split_ifs with marked
  · rw [List.drop_append_of_le_length]
    exact (List.isPrefixOf_iff_prefix.mp marked).length_le
  · rfl

theorem splitOnce_stripExport (plain : '=' ∉ before) :
    splitOnce '=' (stripExport (before ++ '=' :: rest)) = some (stripExport before, rest) :=
  splitOnce_eq_some_iff.mpr ⟨fun member => plain (stripExport_subset member), stripExport_append⟩

theorem mem_stripExport (member : '#' ∈ line) : '#' ∈ stripExport line := by
  rw [stripExport]
  split_ifs with marked
  · obtain ⟨rest, rfl⟩ := List.isPrefixOf_iff_prefix.mp marked
    rw [List.drop_left]
    exact (List.mem_append.mp member).resolve_left not_mem_exportMark.2
  · exact member

theorem readLine_eq (line : List Char) :
    readLine line = (splitOnce '=' (stripExport (trimChars (line.takeWhile (· ≠ '#'))))).map
      fun found => (trimChars found.1, stripWrappingQuotes (trimChars found.2)) := by
  rw [readLine]
  split_ifs with blank
  · rw [blank]
    rfl
  · rfl

/-- What is read of a line where no comment begins before the first equals sign. -/
theorem readLine_of_split (split : line.dropWhile isWhitespace = before ++ '=' :: rest)
    (plain : '=' ∉ before) (code : '#' ∉ before) :
    readLine line =
      some (trimChars (stripExport before),
        stripWrappingQuotes (trimChars (rest.takeWhile (· ≠ '#')))) := by
  have cut : trimChars (line.takeWhile (· ≠ '#')) =
      before ++ '=' :: (rest.takeWhile (· ≠ '#')).rdropWhile isWhitespace := by
    rw [trimChars, dropWhile_takeWhile (by decide), split,
      List.takeWhile_append_of_pos (forall_ne_of_not_mem code),
      List.takeWhile_cons_of_pos (by decide), rdropWhile_append_cons (by decide)]
  rw [readLine_eq, cut, splitOnce_stripExport plain, Option.map_some, trimChars_rdropWhile]

theorem setsKey_of_split (split : line.dropWhile isWhitespace = before ++ '=' :: rest)
    (plain : '=' ∉ before) :
    setsKey key line = decide (trimChars (stripExport before) = key) := by
  rw [setsKey, split, splitOnce_stripExport plain]

theorem readLine_eq_none
    (plain : '=' ∉ (line.dropWhile isWhitespace).takeWhile (· ≠ '#')) : readLine line = none := by
  rw [readLine_eq, Option.map_eq_none_iff, splitOnce_eq_none_iff, trimChars,
    dropWhile_takeWhile (by decide)]
  exact fun member => plain ((List.rdropWhile_prefix _ _).subset (stripExport_subset member))

theorem setsKey_eq_false (plain : '=' ∉ line.dropWhile isWhitespace) :
    setsKey key line = false := by
  have whole := splitOnce_eq_none_iff.mpr fun member => plain (stripExport_subset member)
  rw [setsKey, whole]

theorem setsKey_iff (plainKey : '#' ∉ key) :
    setsKey key line = true ↔ ∃ value, readLine line = some (key, value) := by
  have unread : readLine line = none → ¬ ∃ value, readLine line = some (key, value) := by
    rintro none ⟨value, found⟩
    rw [none] at found
    cases found
  by_cases sets : '=' ∈ line.dropWhile isWhitespace
  · obtain ⟨before, rest, split, plain⟩ := List.eq_append_cons_of_mem sets
    rw [setsKey_of_split split plain, decide_eq_true_iff]
    by_cases comment : '#' ∈ before
    · -- A comment begins before the equals sign.
      refine iff_of_false ?_ (unread (readLine_eq_none ?_))
      · intro same
        exact plainKey (same ▸ mem_trimChars (mem_stripExport comment) (by decide))
      · obtain ⟨code, later, rfl, clean⟩ := List.eq_append_cons_of_mem comment
        rw [split, List.append_assoc, List.cons_append, takeWhile_append_cons clean]
        exact fun member => plain (List.mem_append_left _ member)
    · rw [readLine_of_split split plain comment]
      constructor
      · intro same
        exact ⟨_, by rw [same]⟩
      · rintro ⟨value, found⟩
        exact congrArg Prod.fst (Option.some.inj found)
  · rw [setsKey_eq_false sets]
    refine iff_of_false Bool.false_ne_true (unread (readLine_eq_none ?_))
    exact fun member => sets ((List.takeWhile_prefix _).subset member)

/-! ### The line that is written -/

def readBack (value : List Char) : List Char :=
  stripWrappingQuotes (trimChars (value.takeWhile (· ≠ '#')))

theorem readLine_setting
    (plainKey : ∀ c ∈ key, c ≠ '=' ∧ c ≠ '#' ∧ isWhitespace c = false) :
    readLine (setting key value) = some (key, readBack value) := by
  have ink : ∀ c ∈ key, isWhitespace c = false := fun c member => (plainKey c member).2.2
  have start : (setting key value).dropWhile isWhitespace = key ++ '=' :: value := by
    rw [setting]
    cases key with
    | nil => rfl
    | cons c rest =>
      rw [List.cons_append, List.dropWhile_cons_of_neg (by simp [ink c List.mem_cons_self])]
  have unmarked : stripExport key = key := by
    rw [stripExport, if_neg]
    intro marked
    have blank : ' ' ∈ key :=
      (List.isPrefixOf_iff_prefix.mp marked).subset (by decide : ' ' ∈ exportMark)
    exact absurd (ink ' ' blank) (by decide)
  have trimmed : trimChars key = key :=
    trimChars_eq_self (fun c first => ink c (List.mem_of_mem_head? first))
      (fun c last => ink c (List.mem_of_getLast? last))
  rw [readLine_of_split start (fun member => (plainKey _ member).1 rfl)
    (fun member => (plainKey _ member).2.1 rfl), unmarked, trimmed, readBack]

theorem readLine_dropReturn (line : List Char) : readLine (dropReturn line) = readLine line := by
  unfold dropReturn
  split_ifs with ended
  · obtain ⟨front, rfl⟩ := List.getLast?_eq_some_iff.mp ended
    have trimmed : trimChars ((front ++ ['\r']).takeWhile (· ≠ '#')) =
        trimChars (front.takeWhile (· ≠ '#')) := by
      by_cases comment : '#' ∈ front
      · obtain ⟨code, later, rfl, clean⟩ := List.eq_append_cons_of_mem comment
        rw [List.append_assoc, List.cons_append, takeWhile_append_cons clean,
          takeWhile_append_cons clean]
      · have clean := forall_ne_of_not_mem comment
        rw [List.takeWhile_append_of_pos clean, List.takeWhile_eq_self_iff.mpr clean]
        exact trimChars_concat (by decide)
    rw [List.dropLast_concat, readLine_eq, readLine_eq, trimmed]
  · rfl

/-! ### Values -/

/-- A value that is read as it is written has no number sign, no white space around it, and no
quotes around it. -/
structure ReadAsWritten (value : List Char) : Prop where
  code : '#' ∉ value
  trimmed : trimChars value = value
  bare : ¬ Wrapped value

theorem length_stripWrappingQuotes_le (value : List Char) :
    (stripWrappingQuotes value).length ≤ value.length := by
  rw [stripWrappingQuotes]
  split_ifs
  · rw [List.length_dropLast, List.length_tail]
    omega
  · exact Nat.le_refl _

theorem stripWrappingQuotes_eq_self_iff :
    stripWrappingQuotes value = value ↔ ¬ Wrapped value := by
  rw [stripWrappingQuotes]
  split_ifs with wrapped
  · refine iff_of_false ?_ (not_not_intro wrapped)
    intro same
    have length := congrArg List.length same
    rw [List.length_dropLast, List.length_tail] at length
    have two := wrapped.1
    omega
  · exact iff_of_true rfl wrapped

theorem readBack_eq_self_iff : readBack value = value ↔ ReadAsWritten value := by
  constructor
  · intro same
    -- Each of the three steps makes a value shorter, if it makes a difference.
    have cut := List.takeWhile_sublist (l := value) (fun c => decide (c ≠ '#'))
    have trims := trimChars_sublist (value.takeWhile (· ≠ '#'))
    have strips := length_stripWrappingQuotes_le (trimChars (value.takeWhile (· ≠ '#')))
    have length := congrArg List.length same
    rw [readBack] at length same
    have whole : value.takeWhile (· ≠ '#') = value :=
      cut.eq_of_length_le (by have shorter := trims.length_le; omega)
    rw [whole] at trims strips length same
    have trimmed : trimChars value = value := trims.eq_of_length_le (by omega)
    rw [trimmed] at same
    refine ⟨?_, trimmed, stripWrappingQuotes_eq_self_iff.mp same⟩
    intro member
    have first := List.takeWhile_eq_self_iff.mp whole '#' member
    simp at first
  · rintro ⟨code, trimmed, bare⟩
    have whole : value.takeWhile (· ≠ '#') = value :=
      List.takeWhile_eq_self_iff.mpr (forall_ne_of_not_mem code)
    rw [readBack, whole, trimmed, stripWrappingQuotes_eq_self_iff.mpr bare]

end Lines

/-! ### Files -/

section Files

variable {file : Option String} {key value other : String}

theorem assignBy_ne_nil {sets : List Char → Bool} {item : List Char} {items : List (List Char)} :
    assignBy sets item items ≠ [] := by
  cases items with
  | nil => exact List.cons_ne_nil _ _
  | cons first rest => exact List.cons_ne_nil _ _

theorem lookupBy_saveEnvValue (oneLine : '\n' ∉ setting key.toList value.toList) (k : List Char) :
    lookupBy readLine k (lines (saveEnvValue file key value).toList) =
      lookupBy readLine k (assignBy (setsKey key.toList) (setting key.toList value.toList)
        (lines (file.getD "").toList)) := by
  have plain : ∀ line ∈ assignBy (setsKey key.toList) (setting key.toList value.toList)
      (lines (file.getD "").toList), '\n' ∉ line := by
    intro line member
    rcases List.mem_append.mp member with replaced | appended
    · obtain ⟨old, inside, rfl⟩ := List.mem_map.mp replaced
      split_ifs
      · exact oneLine
      · exact not_mem_of_mem_lines inside
    · split_ifs at appended
      · cases appended
      · rw [List.mem_singleton.mp appended]
        exact oneLine
  rw [saveEnvValue, String.toList_ofList, if_neg assignBy_ne_nil,
    lines_joinLines_concat assignBy_ne_nil plain]
  exact lookupBy_map fun line _ => readLine_dropReturn line

theorem not_mem_setting
    (plainKey : ∀ c ∈ key.toList, c ≠ '=' ∧ c ≠ '#' ∧ isWhitespace c = false)
    (oneLine : '\n' ∉ value.toList) : '\n' ∉ setting key.toList value.toList := by
  intro member
  rcases List.mem_append.mp member with inKey | later
  · exact absurd (plainKey _ inKey).2.2 (by decide)
  · rcases List.mem_cons.mp later with equals | inValue
    · exact absurd equals (by decide)
    · exact oneLine inValue

theorem loadEnvValue_saved
    (plainKey : ∀ c ∈ key.toList, c ≠ '=' ∧ c ≠ '#' ∧ isWhitespace c = false)
    (oneLine : '\n' ∉ value.toList) :
    loadEnvValue (some (saveEnvValue file key value)) key =
      some (String.ofList (readBack value.toList)) := by
  have found := lookupBy_assignBy_self (@readLine_setting _ value.toList plainKey)
    fun old (_ : old ∈ lines (file.getD "").toList) =>
      setsKey_iff fun comment => (plainKey _ comment).2.1 rfl
  rw [loadEnvValue, Option.bind_some,
    lookupBy_saveEnvValue (not_mem_setting plainKey oneLine), found, Option.map_some]

theorem loadEnvValue_other
    (plainKey : ∀ c ∈ key.toList, c ≠ '=' ∧ c ≠ '#' ∧ isWhitespace c = false)
    (oneLine : '\n' ∉ value.toList) (ne : other ≠ key) :
    loadEnvValue (some (saveEnvValue file key value)) other = loadEnvValue file other := by
  have kept := lookupBy_assignBy_of_ne (@readLine_setting _ value.toList plainKey)
    (fun same => ne (String.toList_inj.mp same))
    fun old (_ : old ∈ lines (file.getD "").toList) replaced =>
      (setsKey_iff fun comment => (plainKey _ comment).2.1 rfl).mp replaced
  rw [loadEnvValue, Option.bind_some,
    lookupBy_saveEnvValue (not_mem_setting plainKey oneLine), kept]
  cases file with
  | none => rfl
  | some content => rfl

theorem plain_interfaceModeEnvVar :
    ∀ c ∈ interfaceModeEnvVar.toList, c ≠ '=' ∧ c ≠ '#' ∧ isWhitespace c = false := by
  simp [interfaceModeEnvVar, isWhitespace]

/-- The interface that was saved is chosen again, whatever else is in the file. -/
theorem interfaceMode_saved (file : Option String) (mode : InterfaceMode) :
    (loadEnvValue (some (saveInterfaceMode file mode)) interfaceModeEnvVar).bind
      normalizeInterfaceMode = some mode := by
  rw [saveInterfaceMode, loadEnvValue_saved plain_interfaceModeEnvVar, Option.bind_some]
  · cases mode with
    | cli => decide
    | tui => decide
  · cases mode with
    | cli => decide
    | tui => decide

end Files

/-- In every file, and in none, a setting is read back after it was saved as its value up to the
first number sign, without the white space and the quotes around it: as it was written, if and only
if it has none of these. All other settings are read as before. -/
theorem save_env_value_round_trip (file : Option String) (key value : String)
    (plainKey : ∀ c ∈ key.toList, c ≠ '=' ∧ c ≠ '#' ∧ isWhitespace c = false)
    (oneLine : '\n' ∉ value.toList) :
    loadEnvValue (some (saveEnvValue file key value)) key =
        some (String.ofList (readBack value.toList)) ∧
      (loadEnvValue (some (saveEnvValue file key value)) key = some value ↔
        ReadAsWritten value.toList) ∧
      ∀ other, other ≠ key →
        loadEnvValue (some (saveEnvValue file key value)) other = loadEnvValue file other := by
  have saved : loadEnvValue (some (saveEnvValue file key value)) key =
      some (String.ofList (readBack value.toList)) := loadEnvValue_saved plainKey oneLine
  refine ⟨saved, ?_, fun other ne => loadEnvValue_other plainKey oneLine ne⟩
  rw [saved, Option.some_inj, ← readBack_eq_self_iff, ← String.toList_inj, String.toList_ofList]

/-- A mode in a file that has another setting. -/
theorem mode_round_trip :
    loadEnvValue (some (saveEnvValue (some "OTHER_KEY=value\n") interfaceModeEnvVar "tui"))
        interfaceModeEnvVar = some "tui" ∧
      loadEnvValue (some (saveEnvValue (some "OTHER_KEY=value\n") interfaceModeEnvVar "tui"))
        "OTHER_KEY" = loadEnvValue (some "OTHER_KEY=value\n") "OTHER_KEY" := by
  have all := save_env_value_round_trip (some "OTHER_KEY=value\n") interfaceModeEnvVar "tui"
    plain_interfaceModeEnvVar (by decide)
  exact ⟨all.2.1.mpr ⟨by decide, by decide, by decide⟩, all.2.2 "OTHER_KEY" (by decide)⟩

/-- A value with a number sign is not read back. -/
theorem comment_lost :
    loadEnvValue (some (saveEnvValue none "PASSWORD" "a#b")) "PASSWORD" ≠ some "a#b" := by
  decide

end KelvinClaw.Cli
