import Mathlib.Data.List.Sort
import Mathlib.Data.Prod.Lex
import Mathlib.Data.String.Basic
import KelvinClaw.Channel.CommandExec

/-!
# The order of the routing rules

The rules are read from one variable, which holds a list in JSON. A rule without an id, or with
the id of another one, is refused; the others are sorted by descending priority and, among equal
priorities, by id. As the ids are distinct this order is total on the rules, so that it does not
matter how they were listed, and the first rule that matches is the best one.
-/

namespace KelvinClaw.Channel

open KelvinClaw.Core Systems Systems.Action

/-! ### Reading the rules -/

/-- The order of the rules: a higher priority first, then the smaller id. -/
def RouteRule.Precedes (left right : RouteRule) : Prop :=
  right.priority < left.priority ∨ (left.priority = right.priority ∧ left.id ≤ right.id)

instance (left right : RouteRule) : Decidable (left.Precedes right) :=
  inferInstanceAs (Decidable (_ ∨ _))

/-- The loop of `from_env` over the ids, with those seen before. -/
def checkRuleIds : List String → List RouteRule → KelvinResult Unit
  | _, [] => .ok ()
  | seenIds, rule :: rest => do
    refuseIf (trim rule.id = "") (.invalidInput "channel routing rule id must not be empty")
    refuseIf (rule.id ∈ seenIds) (.invalidInput s!"duplicate channel routing rule id '{rule.id}'")
    checkRuleIds (rule.id :: seenIds) rest

/-- `ChannelRoutingTable::from_env`, by the value of the variable. The JSON is read by `parse`. -/
def ChannelRoutingTable.fromEnv (parse : String → Except String (List RouteRule))
    (raw : Option String) : KelvinResult ChannelRoutingTable :=
  match trimOption raw with
  | none => .ok ⟨[]⟩
  | some raw =>
    match parse raw with
    | .error err =>
      .error (.invalidInput s!"invalid KELVIN_CHANNEL_ROUTING_RULES_JSON: {err}")
    | .ok parsed => do
      checkRuleIds [] parsed
      return ⟨parsed.insertionSort RouteRule.Precedes⟩

def Configures (parse : String → Except String (List RouteRule)) (raw : Option String)
    (rules : List RouteRule) : Prop :=
  (trimOption raw = none ∧ rules = []) ∨ ∃ text, trimOption raw = some text ∧ parse text = .ok rules

/-- Every rule has an id of its own. -/
structure Identified (rules : List RouteRule) : Prop where
  nonblank : ∀ rule ∈ rules, trim rule.id ≠ ""
  distinct : (rules.map (·.id)).Nodup

/-! ### Best rules -/

structure IsBest (rules : List RouteRule) (input : RouteInput) (rule : RouteRule) : Prop where
  configured : rule ∈ rules
  isMatch : rule.matches input = true
  first : ∀ other ∈ rules, other.matches input = true → rule.Precedes other

def RouteRule.route (rule : RouteRule) (input : RouteInput) : RouteDecision where
  matchedRuleId := some rule.id
  sessionId := rule.routeSessionId.getD (defaultSessionId input.channel input.accountId)
  workspaceDir := rule.routeWorkspaceDir.or input.requestedWorkspaceDir
  systemPrompt := rule.routeSystemPrompt
  senderTier := input.senderTier.asStr

def RouteInput.unrouted (input : RouteInput) : RouteDecision where
  matchedRuleId := none
  sessionId := input.requestedSessionId.getD (defaultSessionId input.channel input.accountId)
  workspaceDir := input.requestedWorkspaceDir
  systemPrompt := none
  senderTier := input.senderTier.asStr

/-- A module sets a field to a text, which it gives with white space around it or without. -/
def Sets (field : Option String) (text : String) : Prop :=
  ∃ given, field = some given ∧ trim given = text ∧ text ≠ ""

structure Overrides {α : Type} (field : Option String) (value : String → α) (before after : α) :
    Prop where
  replaced : ∀ text, Sets field text → after = value text
  kept : (∀ text, ¬ Sets field text) → after = before

/-! ### The order is total on identified rules -/

section Order

variable {rules others : List RouteRule} {input : RouteInput} {rule other : RouteRule}

def RouteRule.place (rule : RouteRule) : ℤᵒᵈ ×ₗ String :=
  toLex (OrderDual.toDual rule.priority, rule.id)

theorem RouteRule.precedes_iff : rule.Precedes other ↔ rule.place ≤ other.place := by
  rw [place, place, Prod.Lex.toLex_le_toLex]
  rfl

instance : Std.Total RouteRule.Precedes where
  total left right := by
    rw [RouteRule.precedes_iff, RouteRule.precedes_iff]
    exact le_total _ _

instance : IsTrans RouteRule RouteRule.Precedes where
  trans first second third early late := by
    rw [RouteRule.precedes_iff] at early late ⊢
    exact early.trans late

theorem Identified.antisymm (identified : Identified rules) (member : rule ∈ rules)
    (member' : other ∈ rules) (forth : rule.Precedes other) (back : other.Precedes rule) :
    rule = other := by
  have same : rule.place = other.place :=
    le_antisymm (RouteRule.precedes_iff.mp forth) (RouteRule.precedes_iff.mp back)
  exact List.inj_on_of_nodup_map identified.distinct member member'
    (Prod.mk.inj (toLex_inj.mp same)).2

theorem Identified.perm (identified : Identified rules) (perm : rules.Perm others) :
    Identified others :=
  ⟨fun rule member => identified.nonblank rule (perm.mem_iff.mpr member),
    (perm.map _).nodup_iff.mp identified.distinct⟩

theorem Identified.insertionSort_eq (identified : Identified rules) (perm : rules.Perm others) :
    rules.insertionSort RouteRule.Precedes = others.insertionSort RouteRule.Precedes := by
  have sorted := List.perm_insertionSort RouteRule.Precedes rules
  have sorted' := List.perm_insertionSort RouteRule.Precedes others
  refine List.Perm.eq_of_pairwise ?_ (List.pairwise_insertionSort _ _)
    (List.pairwise_insertionSort _ _) (sorted.trans (perm.trans sorted'.symm))
  intro rule other member member'
  -- Two sorted lists of the same rules agree because no two of these share a place.
  exact identified.antisymm (sorted.mem_iff.mp member)
    (perm.mem_iff.mpr (sorted'.mem_iff.mp member'))

theorem precedes_of_find? (sorted : rules.Pairwise RouteRule.Precedes)
    (found : rules.find? (·.matches input) = some rule) (member : other ∈ rules)
    (isMatch : other.matches input = true) : rule.Precedes other := by
  obtain ⟨_, before, after, rfl, noMatch⟩ := List.find?_eq_some_iff_append.mp found
  rw [List.pairwise_append, List.pairwise_cons] at sorted
  rcases List.mem_append.mp member with early | late
  · simpa [isMatch] using noMatch other early
  · rcases List.mem_cons.mp late with rfl | late
    · exact refl _
    · exact sorted.2.1.1 other late

theorem decide_of_isBest (identified : Identified rules) (best : IsBest rules input rule) :
    (ChannelRoutingTable.mk (rules.insertionSort RouteRule.Precedes)).decide input =
      rule.route input := by
  have sorted := List.perm_insertionSort RouteRule.Precedes rules
  have found : (rules.insertionSort RouteRule.Precedes).find? (·.matches input) = some rule := by
    cases found : (rules.insertionSort RouteRule.Precedes).find? (·.matches input) with
    | none =>
      have noMatch := List.find?_eq_none.mp found rule (sorted.mem_iff.mpr best.configured)
      exact absurd best.isMatch noMatch
    | some chosen =>
      -- The first match precedes the best rule, which precedes it.
      have isMatch := List.find?_some found
      have member := sorted.mem_iff.mp (List.mem_of_find?_eq_some found)
      have before := precedes_of_find? (List.pairwise_insertionSort _ _) found
        (sorted.mem_iff.mpr best.configured) best.isMatch
      rw [identified.antisymm member best.configured before (best.first chosen member isMatch)]
  unfold ChannelRoutingTable.decide
  dsimp only
  rw [found]
  rfl

theorem decide_of_no_match (unmatched : ∀ rule ∈ rules, rule.matches input = false) :
    (ChannelRoutingTable.mk (rules.insertionSort RouteRule.Precedes)).decide input =
      input.unrouted := by
  have nothing : (rules.insertionSort RouteRule.Precedes).find? (·.matches input) = none :=
    List.find?_eq_none.mpr fun rule member => by
      simpa using unmatched rule ((List.perm_insertionSort RouteRule.Precedes _).mem_iff.mp member)
  unfold ChannelRoutingTable.decide
  dsimp only
  rw [nothing]
  rfl

theorem exists_isBest (member : rule ∈ rules) (isMatch : rule.matches input = true) :
    ∃ best, IsBest rules input best := by
  have sorted := List.perm_insertionSort RouteRule.Precedes rules
  have some_found : ((rules.insertionSort RouteRule.Precedes).find? (·.matches input)).isSome :=
    List.find?_isSome.mpr ⟨rule, sorted.mem_iff.mpr member, isMatch⟩
  obtain ⟨best, found⟩ := Option.isSome_iff_exists.mp some_found
  have isBestMatch : best.matches input = true := by simpa using List.find?_some found
  refine ⟨best, sorted.mem_iff.mp (List.mem_of_find?_eq_some found), isBestMatch, ?_⟩
  intro other member' isMatch'
  exact precedes_of_find? (List.pairwise_insertionSort _ _) found (sorted.mem_iff.mpr member')
    isMatch'

theorem IsBest.of_same_before (best : IsBest rules input rule)
    (same : ∀ other : RouteRule, other.Precedes rule → (other ∈ others ↔ other ∈ rules)) :
    IsBest others input rule := by
  refine ⟨(same rule (refl rule)).mpr best.configured, best.isMatch, fun other member isMatch => ?_⟩
  rcases total_of RouteRule.Precedes rule other with first | second
  · exact first
  -- A match that precedes the best rule is among the rules that did not change.
  · exact best.first other ((same other second).mp member) isMatch

end Order

/-! ### The table of a variable -/

section Tables

variable {parse : String → Except String (List RouteRule)} {raw raw' : Option String}
  {rules rules' : List RouteRule} {table : ChannelRoutingTable}

theorem checkRuleIds_eq_ok_iff {seenIds : List String} :
    checkRuleIds seenIds rules = .ok () ↔
      Identified rules ∧ ∀ rule ∈ rules, rule.id ∉ seenIds := by
  induction rules generalizing seenIds with
  | nil => exact iff_of_true rfl ⟨⟨by simp, by simp⟩, by simp⟩
  | cons rule rest ih =>
    simp only [checkRuleIds, bind_eq_ok, refuseIf_eq_ok, exists_const, ih]
    constructor
    · rintro ⟨nonblank, unseen, ⟨blanks, distinct⟩, fresh⟩
      refine ⟨⟨List.forall_mem_cons.mpr ⟨nonblank, blanks⟩, ?_⟩,
        List.forall_mem_cons.mpr ⟨unseen, ?_⟩⟩
      · rw [List.map_cons, List.nodup_cons]
        refine ⟨fun twice => ?_, distinct⟩
        obtain ⟨other, member, same⟩ := List.mem_map.mp twice
        exact fresh other member (same ▸ List.mem_cons_self)
      · exact fun other member seen => fresh other member (List.mem_cons_of_mem _ seen)
    · rintro ⟨⟨blanks, distinct⟩, unseen⟩
      rw [List.map_cons, List.nodup_cons] at distinct
      obtain ⟨nonblank, blanks⟩ := List.forall_mem_cons.mp blanks
      obtain ⟨new, fresh⟩ := List.forall_mem_cons.mp unseen
      refine ⟨nonblank, new, ⟨blanks, distinct.2⟩, fun other member seen => ?_⟩
      rcases List.mem_cons.mp seen with same | seen
      · exact distinct.1 (same ▸ List.mem_map_of_mem member)
      · exact fresh other member seen

theorem fromEnv_eq_ok_iff (configured : Configures parse raw rules) :
    ChannelRoutingTable.fromEnv parse raw = .ok table ↔
      Identified rules ∧ table = ⟨rules.insertionSort RouteRule.Precedes⟩ := by
  unfold ChannelRoutingTable.fromEnv
  rcases configured with ⟨blank, rfl⟩ | ⟨text, given, parsed⟩
  · rw [blank]
    have identified : Identified [] := ⟨by simp, by simp⟩
    simp [identified, eq_comm]
  · simp only [given, parsed, bind_eq_ok, pure_eq_ok]
    constructor
    · rintro ⟨_, checked, rfl⟩
      exact ⟨(checkRuleIds_eq_ok_iff.mp checked).1, rfl⟩
    · rintro ⟨identified, rfl⟩
      exact ⟨(), checkRuleIds_eq_ok_iff.mpr ⟨identified, by simp⟩, rfl⟩

theorem fromEnv_perm (configured : Configures parse raw rules)
    (configured' : Configures parse raw' rules') (perm : rules.Perm rules') :
    ChannelRoutingTable.fromEnv parse raw = .ok table ↔
      ChannelRoutingTable.fromEnv parse raw' = .ok table := by
  rw [fromEnv_eq_ok_iff configured, fromEnv_eq_ok_iff configured']
  constructor
  · rintro ⟨identified, rfl⟩
    exact ⟨identified.perm perm, by rw [identified.insertionSort_eq perm]⟩
  · rintro ⟨identified, rfl⟩
    exact ⟨identified.perm perm.symm, by rw [identified.insertionSort_eq perm.symm]⟩

end Tables

/-! ### Overrides -/

theorem trimOption_eq_some_iff {field : Option String} {text : String} :
    trimOption field = some text ↔ Sets field text := by
  unfold trimOption Sets
  cases field with
  | none => simp
  | some given =>
    simp only [Option.map_some, Option.filter_eq_some_iff, Option.some.injEq, exists_eq_left',
      decide_eq_true_eq]

theorem trimOption_eq_none_iff {field : Option String} :
    trimOption field = none ↔ ∀ text, ¬ Sets field text := by
  simp only [Option.eq_none_iff_forall_ne_some, ne_eq, trimOption_eq_some_iff]

theorem overrides_getD (field : Option String) (before : String) :
    Overrides field id before ((trimOption field).getD before) := by
  constructor
  · intro text sets
    rw [trimOption_eq_some_iff.mpr sets]
    rfl
  · intro unset
    rw [trimOption_eq_none_iff.mpr unset]
    rfl

theorem overrides_or (field : Option String) (before : Option String) :
    Overrides field some before ((trimOption field).or before) := by
  constructor
  · intro text sets
    rw [trimOption_eq_some_iff.mpr sets]
    rfl
  · intro unset
    rw [trimOption_eq_none_iff.mpr unset]
    rfl

/-! ### Messages -/

theorem route_of_queued {ctx : ChannelContext} {envelope : ChannelEnvelope} {machine : Machine}
    {entry : QueuedEnvelope} (queued : .queued entry ∈ (ingest ctx envelope machine).journal)
    (plain : entry.slashCommand = none) :
    ∃ passed trustTier decision,
      (screen ctx envelope machine).result = .ok (.passed passed trustTier decision) ∧
        entry = ⟨passed, messageRoute ctx passed trustTier decision, none⟩ := by
  obtain ⟨passed, trustTier, decision, passes, acts⟩ := acts_of_ingest queued trivial
  refine ⟨passed, trustTier, decision, passes, ?_⟩
  -- Of what an arrival does, only an entry whose verdict is to queue it queues one.
  rcases acts with ⟨_, _, bypassed⟩ | ⟨other, verdict, _, same | ⟨_, _, executes⟩⟩
  · cases bypassed
  · obtain rfl := ChannelEvent.queued.inj same
    unfold verdictFor at verdict
    dsimp only at verdict
    cases command : commandFor ctx passed.text with
    | none =>
      rw [command] at verdict
      exact (Verdict.queue.inj verdict).symm
    | some called =>
      obtain ⟨command, name, args⟩ := called
      simp only [command] at verdict
      split_ifs at verdict
      have isEntry := Verdict.queue.inj verdict
      rw [← isEntry] at plain
      cases plain
  · cases executes

/-- Routing is a best match. The best rule of an accepted variable decides, and without one the
input decides itself; the order of the list does not matter; the rules after the best one do not
matter; and the route of a message is overridden in the fields that the policy module sets to a
text that is not blank. -/
theorem routing_is_best_match :
    (∀ parse raw rules table, Configures parse raw rules →
      ChannelRoutingTable.fromEnv parse raw = .ok table → ∀ input : RouteInput,
        (∃ rule, IsBest rules input rule ∧ table.decide input = rule.route input) ∨
          ((∀ rule ∈ rules, rule.matches input = false) ∧
            table.decide input = input.unrouted)) ∧
    (∀ parse raw raw' rules rules', Configures parse raw rules → Configures parse raw' rules' →
      rules.Perm rules' → ∀ table, ChannelRoutingTable.fromEnv parse raw = .ok table ↔
        ChannelRoutingTable.fromEnv parse raw' = .ok table) ∧
    (∀ parse raw raw' rules rules' table table', Configures parse raw rules →
      Configures parse raw' rules' → ChannelRoutingTable.fromEnv parse raw = .ok table →
        ChannelRoutingTable.fromEnv parse raw' = .ok table' → ∀ input rule,
          IsBest rules input rule →
            (∀ other : RouteRule, other.Precedes rule → (other ∈ rules' ↔ other ∈ rules)) →
              table'.decide input = table.decide input) ∧
    (∀ (route : RouteDecision) (decision : WasmPolicyDecision),
      Overrides decision.routeSessionId id route.sessionId
        (route.applyWasmOverrides decision).sessionId ∧
      Overrides decision.routeWorkspaceDir some route.workspaceDir
        (route.applyWasmOverrides decision).workspaceDir ∧
      Overrides decision.routeSystemPrompt some route.systemPrompt
        (route.applyWasmOverrides decision).systemPrompt ∧
      (route.applyWasmOverrides decision).matchedRuleId = route.matchedRuleId ∧
      (route.applyWasmOverrides decision).senderTier = route.senderTier) ∧
    ∀ ctx envelope machine entry, .queued entry ∈ (ingest ctx envelope machine).journal →
      entry.slashCommand = none → ∃ passed trustTier decision,
        (screen ctx envelope machine).result = .ok (.passed passed trustTier decision) ∧
          entry = ⟨passed, messageRoute ctx passed trustTier decision, none⟩ := by
  refine ⟨?_, ?_, ?_, ?_, fun _ _ _ _ => route_of_queued⟩
  · intro parse raw rules table configured accepted input
    obtain ⟨identified, rfl⟩ := (fromEnv_eq_ok_iff configured).mp accepted
    by_cases matched : ∃ rule ∈ rules, rule.matches input = true
    · obtain ⟨rule, member, isMatch⟩ := matched
      obtain ⟨best, isBest⟩ := exists_isBest member isMatch
      exact .inl ⟨best, isBest, decide_of_isBest identified isBest⟩
    · have unmatched : ∀ rule ∈ rules, rule.matches input = false := by simpa using matched
      exact .inr ⟨unmatched, decide_of_no_match unmatched⟩
  · exact fun _ _ _ _ _ configured configured' perm _ => fromEnv_perm configured configured' perm
  · -- The rules up to the best one decide, and they are the same.
    intro parse raw raw' rules rules' table table' configured configured' accepted accepted'
      input rule best same
    obtain ⟨identified, rfl⟩ := (fromEnv_eq_ok_iff configured).mp accepted
    obtain ⟨identified', rfl⟩ := (fromEnv_eq_ok_iff configured').mp accepted'
    rw [decide_of_isBest identified best, decide_of_isBest identified' (best.of_same_before same)]
  · intro route decision
    exact ⟨overrides_getD _ _, overrides_or _ _, overrides_or _ _, rfl, rfl⟩

/-- A field that the module sets to a blank text is not replaced. -/
theorem blank_override_is_ignored :
    ¬ ∀ (route : RouteDecision) (decision : WasmPolicyDecision) text,
      decision.routeSessionId = some text →
        (route.applyWasmOverrides decision).sessionId = text ∨
          (route.applyWasmOverrides decision).sessionId = trim text := by
  intro replaces
  have replaced := replaces ⟨none, "slack:channel-1", none, none, "standard"⟩
    ⟨true, none, none, none, some " ", none, none⟩ " " rfl
  revert replaced
  decide

end KelvinClaw.Channel
