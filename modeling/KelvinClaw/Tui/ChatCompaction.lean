import KelvinClaw.Core.Decimal
import KelvinClaw.Tui.ChatLines

/-!
# Compaction of the chat

A chat that has become too long loses its oldest messages, and a header in front of the others says
how many are gone. The header is a message of the chat: it takes a place, the next compaction drops
it, and how many messages were gone before is read from its text.

A run goes from an empty chat on. Each event pushes messages, and the chat is compacted after it.
-/

namespace KelvinClaw.Tui

open KelvinClaw.Core

def maxChatMessages : ℕ := 1000

theorem maxChatMessages_pos : 0 < maxChatMessages :=
  Nat.succ_pos 999

def omittedWords : List Char := "earlier messages omitted".toList

def omittedHeader (total : ℕ) : ChatMessage := .system s!"[{total} earlier messages omitted]"

/-- The number in the first message, if that reads like a header. -/
def priorCount (chat : List ChatMessage) : ℕ :=
  match chat.head? with
  | some (.system s) =>
    if s.toList.head? = some '[' ∧ (findText omittedWords s.toList).isSome then
      ((splitWhitespace (s.toList.dropWhile (· = '['))).head?.bind parseUsize).getD 0
    else 0
  | _ => 0

def compactChat (chat : List ChatMessage) : List ChatMessage :=
  if chat.length ≤ maxChatMessages then chat
  else
    let toRemove := chat.length - maxChatMessages
    let prior := priorCount chat
    let kept := chat.drop toRemove
    let total := (toRemove + prior) % (usizeMax + 1)
    -- A header that was there is drained, and the message that is first now makes room for the new
    -- one.
    if 0 < prior then omittedHeader total :: kept.tail else omittedHeader total :: kept

def compactedChat (events : List (List ChatMessage)) : List ChatMessage :=
  events.foldl (fun chat pushed => compactChat (chat ++ pushed)) []

def Counts (pushed chat : List ChatMessage) : Prop :=
  chat = pushed ∨
    ∃ kept, kept <:+ pushed ∧ chat = omittedHeader (pushed.length - kept.length) :: kept

structure KeepsHistory (pushed chat : List ChatMessage) : Prop where
  bounded : chat.length ≤ maxChatMessages
  counts : Counts pushed chat

/-! ### The header -/

def numberedWords (total : ℕ) : List Char :=
  (toString total).toList ++ ' ' :: (omittedWords ++ [']'])

theorem omittedHeader_eq (total : ℕ) :
    omittedHeader total = .system (String.ofList ('[' :: numberedWords total)) := by
  have bracket : (toString "[").toList = ['['] := rfl
  have words : (toString " earlier messages omitted]").toList = ' ' :: (omittedWords ++ [']']) := by
    change (" " ++ "earlier messages omitted" ++ "]").toList = _
    rw [String.toList_append, String.toList_append]
    rfl
  refine congrArg ChatMessage.system (String.toList_inj.mp ?_)
  rw [String.toList_append, String.toList_append, bracket, words, String.toList_ofList,
    numberedWords, List.append_assoc, List.singleton_append]

theorem priorCount_omittedHeader {total : ℕ} (fits : total ≤ usizeMax) {rest : List ChatMessage} :
    priorCount (omittedHeader total :: rest) = total := by
  have found : (findText omittedWords ('[' :: numberedWords total)).isSome := by
    refine findText_isSome ⟨'[' :: ((toString total).toList ++ [' ']), [']'], ?_⟩
    simp only [numberedWords, List.cons_append, List.append_assoc, List.nil_append]
  have digits : ∀ c ∈ (toString total).toList, isWhitespace c = false ∧ c ≠ '[' := by
    intro c member
    refine ⟨isWhitespace_of_isDigit (isDigit_of_mem_toString member), ?_⟩
    rintro rfl
    exact not_mem_toString rfl member
  have number : (splitWhitespace (numberedWords total)).head? = some (toString total).toList := by
    have split := List.splitOnP_append_cons_of_forall_mem (fun c member => (digits c member).1) ' '
      (by decide) (omittedWords ++ [']'])
    rw [splitWhitespace, numberedWords, split, List.filter_cons_of_pos, List.head?_cons]
    simp
  have start : (numberedWords total).dropWhile (· = '[') = numberedWords total := by
    rw [numberedWords]
    cases text : (toString total).toList with
    | nil => rfl
    | cons digit others =>
      have plain := (digits digit (text ▸ List.mem_cons_self)).2
      rw [List.cons_append, List.dropWhile_cons_of_neg (by simpa using plain)]
  rw [omittedHeader_eq, priorCount]
  simp only [List.head?_cons, String.toList_ofList, found, true_and, if_true]
  rw [List.dropWhile_cons_of_pos (by decide), start, number, Option.bind_some,
    parseUsize_toString fits, Option.getD_some]

theorem priorCount_le (chat : List ChatMessage) : priorCount chat ≤ usizeMax := by
  rw [priorCount]
  split
  · split_ifs
    · rename_i s _ _
      cases number : (splitWhitespace (s.toList.dropWhile (· = '['))).head?.bind parseUsize with
      | none => exact Nat.zero_le _
      | some n =>
        obtain ⟨word, -, reads⟩ := Option.bind_eq_some_iff.mp number
        exact parseUsize_le reads
    · exact Nat.zero_le _
  · exact Nat.zero_le _

theorem omittedHeader_inj {total other : ℕ} (same : omittedHeader total = omittedHeader other) :
    total = other := by
  rw [omittedHeader_eq, omittedHeader_eq] at same
  have texts := congrArg String.toList (ChatMessage.system.inj same)
  rw [String.toList_ofList, String.toList_ofList] at texts
  exact toList_toString_inj (List.append_cancel_right (List.cons.inj texts).2)

/-! ### One compaction -/

def omitting (gone : ℕ) (pushed : List ChatMessage) : List ChatMessage :=
  omittedHeader gone :: pushed.drop gone

section Compaction

variable {pushed chat : List ChatMessage} {gone : ℕ}

theorem length_omitting (within : gone ≤ pushed.length) :
    (omitting gone pushed).length + gone = pushed.length + 1 := by
  rw [omitting, List.length_cons, List.length_drop]
  omega

theorem drop_succ_omitting (count : ℕ) :
    (omitting gone pushed).drop (count + 1) = pushed.drop (count + gone) := by
  rw [omitting, List.drop_succ_cons, List.drop_drop, Nat.add_comm]

theorem omitting_append (within : gone ≤ pushed.length) (more : List ChatMessage) :
    omitting gone pushed ++ more = omitting gone (pushed ++ more) := by
  rw [omitting, omitting, List.cons_append, List.drop_append_of_le_length within]

theorem counts_omitting (within : gone ≤ pushed.length) : Counts pushed (omitting gone pushed) := by
  refine Or.inr ⟨pushed.drop gone, List.drop_suffix gone pushed, ?_⟩
  rw [omitting, List.length_drop, Nat.sub_sub_self within]

theorem compactChat_of_le (fits : chat.length ≤ maxChatMessages) : compactChat chat = chat :=
  if_pos fits

/-- A chat without a header gets one in front of as many messages as may be there. -/
theorem compactChat_of_priorCount_eq_zero (exceeds : maxChatMessages < chat.length)
    (plain : priorCount chat = 0) :
    compactChat chat =
      omittedHeader ((chat.length - maxChatMessages) % (usizeMax + 1)) ::
        chat.drop (chat.length - maxChatMessages) := by
  rw [compactChat, if_neg (Nat.not_le.mpr exceeds), plain]
  simp only [Nat.lt_irrefl, if_false, Nat.add_zero]

/-- A message that reads like a header is replaced, and so is the first message that is kept. -/
theorem compactChat_of_priorCount_pos (exceeds : maxChatMessages < chat.length)
    (header : 0 < priorCount chat) :
    compactChat chat =
      omittedHeader ((chat.length - maxChatMessages + priorCount chat) % (usizeMax + 1)) ::
        chat.drop (chat.length - maxChatMessages + 1) := by
  rw [compactChat, if_neg (Nat.not_le.mpr exceeds)]
  simp only [header, if_true, List.tail_drop]

/-- A header is replaced by one that counts the messages dropped with it. The chat has then as many
messages as it may have. -/
theorem compactChat_omitting (headed : 0 < gone)
    (early : gone ≤ pushed.length - (maxChatMessages - 1))
    (fits : pushed.length - (maxChatMessages - 1) ≤ usizeMax) :
    compactChat (omitting gone pushed) =
      omitting (pushed.length - (maxChatMessages - 1)) pushed := by
  have large := maxChatMessages_pos
  have length : (omitting gone pushed).length + gone = pushed.length + 1 :=
    length_omitting (by omega)
  by_cases small : (omitting gone pushed).length ≤ maxChatMessages
  · have same : gone = pushed.length - (maxChatMessages - 1) := by omega
    rw [compactChat_of_le small, ← same]
  · have prior : priorCount (omitting gone pushed) = gone :=
      priorCount_omittedHeader (early.trans fits)
    have total : (omitting gone pushed).length - maxChatMessages + gone =
        pushed.length - (maxChatMessages - 1) := by omega
    rw [compactChat_of_priorCount_pos (Nat.lt_of_not_le small) (prior.symm ▸ headed),
      drop_succ_omitting, prior, total, Nat.mod_eq_of_lt (Nat.lt_succ_of_le fits), omitting]

end Compaction

/-! ### Runs -/

section Runs

variable {events : List (List ChatMessage)} {pushed : List ChatMessage}

theorem compactedChat_concat (events : List (List ChatMessage)) (pushed : List ChatMessage) :
    compactedChat (events ++ [pushed]) = compactChat (compactedChat events ++ pushed) :=
  List.foldl_concat _ _ _ _

theorem flatten_concat (events : List (List ChatMessage)) (pushed : List ChatMessage) :
    (events ++ [pushed]).flatten = events.flatten ++ pushed := by
  rw [List.flatten_append, List.flatten_singleton]

theorem compactedChat_of_le (fits : events.flatten.length ≤ maxChatMessages) :
    compactedChat events = events.flatten := by
  induction events using List.reverseRecOn with
  | nil => rfl
  | append_singleton events pushed ih =>
    rw [flatten_concat] at fits ⊢
    have shorter : events.flatten.length ≤ maxChatMessages := by
      rw [List.length_append] at fits
      omega
    rw [compactedChat_concat, ih shorter, compactChat_of_le fits]

theorem priorCount_append {chat : List ChatMessage} (nonempty : chat ≠ [])
    (more : List ChatMessage) : priorCount (chat ++ more) = priorCount chat := by
  rw [priorCount, priorCount, List.head?_append_of_ne_nil chat nonempty]

theorem priorCount_of_start {first : List (List ChatMessage)} (early : first <+: events)
    (nonempty : first.flatten ≠ []) : priorCount events.flatten = priorCount first.flatten := by
  obtain ⟨later, rfl⟩ := early
  rw [List.flatten_append, priorCount_append nonempty]

/-- A run that has outgrown the bound has as many messages as the bound, except after its first
compaction, which leaves one more. A first message that reads like a header for one message makes up
for that. -/
theorem compactedChat_of_lt (exceeds : maxChatMessages < events.flatten.length)
    (fits : events.flatten.length - (maxChatMessages - 1) ≤ usizeMax)
    (few : priorCount events.flatten ≤ 1) :
    compactedChat events =
        omitting (events.flatten.length - (maxChatMessages - 1)) events.flatten ∨
      priorCount events.flatten = 0 ∧
        compactedChat events =
          omitting (events.flatten.length - maxChatMessages) events.flatten := by
  induction events using List.reverseRecOn with
  | nil => exact absurd exceeds (Nat.not_lt_zero _)
  | append_singleton events pushed ih =>
    have large := maxChatMessages_pos
    have early : events <+: events ++ [pushed] := List.prefix_append events [pushed]
    have length : (events ++ [pushed]).flatten.length = events.flatten.length + pushed.length := by
      rw [flatten_concat, List.length_append]
    by_cases here : events.flatten.length ≤ maxChatMessages
    · -- The first compaction: the chat is all that was pushed.
      rw [compactedChat_concat, compactedChat_of_le here, ← flatten_concat]
      by_cases plain : priorCount (events ++ [pushed]).flatten = 0
      · refine Or.inr ⟨plain, ?_⟩
        rw [compactChat_of_priorCount_eq_zero exceeds plain, Nat.mod_eq_of_lt (by omega), omitting]
      · left
        have one : priorCount (events ++ [pushed]).flatten = 1 := by omega
        have gone : (events ++ [pushed]).flatten.length - maxChatMessages + 1 =
            (events ++ [pushed]).flatten.length - (maxChatMessages - 1) := by omega
        rw [compactChat_of_priorCount_pos exceeds (one.symm ▸ Nat.one_pos), one, gone,
          Nat.mod_eq_of_lt (Nat.lt_succ_of_le fits), omitting]
    · -- The chat has a header already.
      have nonempty : events.flatten ≠ [] := by
        intro empty
        exact here (by rw [empty]; exact Nat.zero_le _)
      have same := priorCount_of_start early nonempty
      have next : ∀ gone, 0 < gone → gone ≤ events.flatten.length - (maxChatMessages - 1) →
          compactChat (omitting gone events.flatten ++ pushed) =
            omitting ((events ++ [pushed]).flatten.length - (maxChatMessages - 1))
              (events ++ [pushed]).flatten := by
        intro gone headed below
        rw [omitting_append (by omega), ← flatten_concat]
        exact compactChat_omitting headed (by omega) fits
      left
      rw [compactedChat_concat]
      rcases ih (by omega) (by omega) (same ▸ few) with full | ⟨-, more⟩
      · rw [full]
        exact next _ (by omega) (Nat.le_refl _)
      · rw [more]
        exact next _ (by omega) (by omega)

theorem counts_compactedChat (fits : events.flatten.length - (maxChatMessages - 1) ≤ usizeMax)
    (few : priorCount events.flatten ≤ 1) : Counts events.flatten (compactedChat events) := by
  rcases Nat.lt_or_ge maxChatMessages events.flatten.length with exceeds | all
  · rcases compactedChat_of_lt exceeds fits few with full | ⟨-, more⟩
    · rw [full]
      exact counts_omitting (Nat.sub_le _ _)
    · rw [more]
      exact counts_omitting (Nat.sub_le _ _)
  · exact Or.inl (compactedChat_of_le all)

theorem keepsHistory_of_one (one : priorCount events.flatten = 1)
    (fits : events.flatten.length - (maxChatMessages - 1) ≤ usizeMax) :
    KeepsHistory events.flatten (compactedChat events) := by
  refine ⟨?_, counts_compactedChat fits one.le⟩
  rcases Nat.lt_or_ge maxChatMessages events.flatten.length with exceeds | all
  · rcases compactedChat_of_lt exceeds fits one.le with full | ⟨zero, -⟩
    · have length := @length_omitting events.flatten _ (Nat.sub_le _ (maxChatMessages - 1))
      have large := maxChatMessages_pos
      rw [full]
      omega
    · rw [one] at zero
      cases zero
  · rw [compactedChat_of_le all]
    exact all

theorem keepsHistory_of_le (fits : events.flatten.length ≤ maxChatMessages) :
    KeepsHistory events.flatten (compactedChat events) := by
  rw [compactedChat_of_le fits]
  exact ⟨fits, Or.inl rfl⟩

theorem eq_one_of_add_mod {n prior : ℕ} (below : prior ≤ usizeMax)
    (number : (n + prior) % (usizeMax + 1) = n + 1) : prior = 1 := by
  have small : n + 1 < usizeMax + 1 := number ▸ Nat.mod_lt _ (Nat.succ_pos _)
  rcases Nat.lt_or_ge (n + prior) (usizeMax + 1) with stays | wraps
  · rw [Nat.mod_eq_of_lt stays] at number
    omega
  · rw [Nat.mod_eq_sub_mod wraps, Nat.mod_eq_of_lt (by omega)] at number
    omega

/-- The first compaction keeps to the bound, and counts right, only where the first message reads
like a header for one message. -/
theorem priorCount_eq_one_of_keepsHistory (exceeds : maxChatMessages < pushed.length)
    (keeps : KeepsHistory pushed (compactChat pushed)) : priorCount pushed = 1 := by
  obtain ⟨bounded, counts⟩ := keeps
  rcases Nat.eq_zero_or_pos (priorCount pushed) with plain | header
  · rw [compactChat_of_priorCount_eq_zero exceeds plain, List.length_cons, List.length_drop]
      at bounded
    omega
  · rw [compactChat_of_priorCount_pos exceeds header] at counts
    rcases counts with whole | ⟨kept, -, headed⟩
    · have length := congrArg List.length whole
      have large := maxChatMessages_pos
      rw [List.length_cons, List.length_drop] at length
      omega
    · obtain ⟨number, rest⟩ := List.cons.inj headed
      have number := omittedHeader_inj number
      have below := priorCount_le pushed
      have large := maxChatMessages_pos
      have gone : pushed.length - (pushed.length - (pushed.length - maxChatMessages + 1)) =
          pushed.length - maxChatMessages + 1 := by omega
      rw [← rest, List.length_drop, gone] at number
      exact eq_one_of_add_mod below number

theorem header_compactChat (exceeds : maxChatMessages < pushed.length) :
    ∃ total ≤ usizeMax, ∃ kept, compactChat pushed = omittedHeader total :: kept := by
  have fits : ∀ n, n % (usizeMax + 1) ≤ usizeMax := fun n =>
    Nat.le_of_lt_succ (Nat.mod_lt _ (Nat.succ_pos _))
  rcases Nat.eq_zero_or_pos (priorCount pushed) with plain | header
  · exact ⟨_, fits _, _, compactChat_of_priorCount_eq_zero exceeds plain⟩
  · exact ⟨_, fits _, _, compactChat_of_priorCount_pos exceeds header⟩

theorem header_compactedChat (exceeds : maxChatMessages < events.flatten.length) :
    ∃ total ≤ usizeMax, ∃ kept, compactedChat events = omittedHeader total :: kept := by
  induction events using List.reverseRecOn with
  | nil => exact absurd exceeds (Nat.not_lt_zero _)
  | append_singleton events pushed ih =>
    rw [compactedChat_concat]
    rcases Nat.lt_or_ge maxChatMessages (compactedChat events ++ pushed).length with again | fits
    · exact header_compactChat again
    · rw [compactChat_of_le fits]
      rcases Nat.lt_or_ge maxChatMessages events.flatten.length with headed | all
      · obtain ⟨total, small, kept, eq⟩ := ih headed
        exact ⟨total, small, kept ++ pushed, by rw [eq, List.cons_append]⟩
      · rw [compactedChat_of_le all, ← flatten_concat] at fits
        exact absurd fits (Nat.not_le.mpr exceeds)

theorem fits_of_keepsHistory (exceeds : maxChatMessages < events.flatten.length)
    (keeps : KeepsHistory events.flatten (compactedChat events)) :
    events.flatten.length - (maxChatMessages - 1) ≤ usizeMax := by
  obtain ⟨bounded, counts⟩ := keeps
  obtain ⟨total, small, rest, headed⟩ := header_compactedChat exceeds
  rcases counts with whole | ⟨kept, -, eq⟩
  · rw [whole] at bounded
    exact absurd bounded (Nat.not_le.mpr exceeds)
  · rw [eq] at headed bounded
    have number := omittedHeader_inj (List.cons.inj headed).1
    rw [List.length_cons] at bounded
    omega

theorem priorCount_eq_one_of_run (exceeds : maxChatMessages < events.flatten.length)
    (keeps : ∀ first, first <+: events → KeepsHistory first.flatten (compactedChat first)) :
    priorCount events.flatten = 1 := by
  induction events using List.reverseRecOn with
  | nil => exact absurd exceeds (Nat.not_lt_zero _)
  | append_singleton events pushed ih =>
    have early : events <+: events ++ [pushed] := List.prefix_append events [pushed]
    rcases Nat.lt_or_ge maxChatMessages events.flatten.length with headed | all
    · have nonempty : events.flatten ≠ [] :=
        List.ne_nil_of_length_pos (Nat.lt_trans maxChatMessages_pos headed)
      rw [priorCount_of_start early nonempty]
      exact ih headed fun first before => keeps first (before.trans early)
    · have here := keeps _ (List.prefix_refl _)
      rw [compactedChat_concat, compactedChat_of_le all, ← flatten_concat] at here
      exact priorCount_eq_one_of_keepsHistory exceeds here

end Runs

/-- After each event of a run, the chat is within the bound, and it is what was pushed or a header
and what was pushed last, with the number of those that are gone in the header, if and only if the
run pushes no more messages than the bound, or the first of them reads like a header for one message
and the number fits. -/
theorem keepsHistory_iff (events : List (List ChatMessage)) :
    (∀ first, first <+: events → KeepsHistory first.flatten (compactedChat first)) ↔
      events.flatten.length ≤ maxChatMessages ∨
        priorCount events.flatten = 1 ∧
          events.flatten.length - (maxChatMessages - 1) ≤ usizeMax := by
  have shorter : ∀ first, first <+: events → first.flatten.length ≤ events.flatten.length := by
    rintro first ⟨later, rfl⟩
    rw [List.flatten_append, List.length_append]
    exact Nat.le_add_right _ _
  constructor
  · intro keeps
    rcases Nat.lt_or_ge maxChatMessages events.flatten.length with exceeds | fits
    · exact Or.inr ⟨priorCount_eq_one_of_run exceeds keeps,
        fits_of_keepsHistory exceeds (keeps events (List.prefix_refl _))⟩
    · exact Or.inl fits
  · rintro (all | ⟨one, fits⟩) first early
    · exact keepsHistory_of_le ((shorter first early).trans all)
    · have length := shorter first early
      by_cases empty : first.flatten = []
      · exact keepsHistory_of_le (by rw [empty]; exact Nat.zero_le _)
      · exact keepsHistory_of_one (priorCount_of_start early empty ▸ one) (by omega)

/-- One message in each event: the event after as many messages as may be there leaves one message
too many. -/
theorem compaction_exceeds : ¬ KeepsHistory
    (List.replicate (maxChatMessages + 1) [ChatMessage.user "hello"]).flatten
    (compactedChat (List.replicate (maxChatMessages + 1) [ChatMessage.user "hello"])) := by
  intro keeps
  rw [List.replicate_succ', compactedChat_concat, compactedChat_of_le, ← flatten_concat,
    ← List.replicate_succ', List.flatten_replicate_singleton] at keeps
  · have one := priorCount_eq_one_of_keepsHistory
      (by rw [List.length_replicate]; exact Nat.lt_succ_self _) keeps
    rw [priorCount, List.replicate_succ, List.head?_cons] at one
    cases one
  · rw [List.flatten_replicate_singleton, List.length_replicate]

end KelvinClaw.Tui
