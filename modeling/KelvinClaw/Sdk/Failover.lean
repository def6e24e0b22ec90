import Mathlib.Data.List.Enum
import KelvinClaw.Brain.Agent
import KelvinClaw.Library.Loops

/-!
# The failover provider

A failover provider asks its providers in order, each up to `max_retries_per_provider`
times more than once, with a pause between two attempts at one provider. The first
answer it has no reason to doubt ends the search: an output, or an error that asking
again does not help. A provider's answer may depend on all that has been asked before.
-/

namespace KelvinClaw.Sdk

open KelvinClaw.Core KelvinClaw.Brain Systems Systems.Action

/-- A provider of models. Its answer may change the state of the surroundings. -/
structure ModelProvider (σ : Type) where
  providerName : String
  modelName : String
  infer : ModelInput → σ → KelvinResult ModelOutput × σ

/-- What a failover provider does. A call is listed with the position of its provider. -/
inductive FailoverEvent where
  | called (position : ℕ) (input : ModelInput)
  | slept (ms : ℕ)

def FailoverEvent.call? : FailoverEvent → Option (ℕ × ModelInput)
  | .called position input => some (position, input)
  | .slept _ => none

structure FailoverAttempt (σ : Type) where
  provider : ModelProvider σ
  position : ℕ
  attempt : ℕ

structure FailoverModelProvider (σ : Type) where
  providers : List (ModelProvider σ)
  chainLabel : String
  maxRetriesPerProvider : UInt8
  retryBackoffMs : ℕ

abbrev FailoverAction (σ α : Type) := Action σ FailoverEvent KelvinError α

def isRetryable : KelvinError → Bool
  | .backend _ | .timeout _ | .io _ => true
  | .invalidInput _ | .notFound _ => false

namespace FailoverModelProvider

variable {σ : Type} (p : FailoverModelProvider σ) (input : ModelInput)

def providerName : String := "kelvin.failover"

def modelName : String := p.chainLabel

/-- `provider.infer(input.clone())`. -/
def ask (a : FailoverAttempt σ) : FailoverAction σ ModelOutput :=
  fun s => ⟨(a.provider.infer input s).1, (a.provider.infer input s).2, [.called a.position input]⟩

/-- A line of the list of failures. The number of an attempt is a `u8` that saturates. -/
def failureLine (a : FailoverAttempt σ) (err : KelvinError) : String :=
  let attemptNumber := saturatingAdd 255 a.attempt 1
  s!"{a.provider.providerName}/{a.provider.modelName} attempt {attemptNumber}: {err.toString}"

def pause (attempt : ℕ) : FailoverAction σ PUnit :=
  if attempt < p.maxRetriesPerProvider.toNat then log (.slept (max p.retryBackoffMs 1))
  else pure ⟨⟩

def tryOnce (a : FailoverAttempt σ) (failureChain : List String) :
    FailoverAction σ (ModelOutput ⊕ List String) := do
  match ← Action.attempt (ask input a) with
  | .ok output => pure (.inl output)
  | .error err =>
    if ¬ isRetryable err then
      fail err
    else
      p.pause a.attempt
      pure (.inr (failureChain ++ [failureLine a err]))

/-- `0..=max_retries_per_provider`, at one provider. -/
def attemptsAt (position : ModelProvider σ × ℕ) : List (FailoverAttempt σ) :=
  (List.range (p.maxRetriesPerProvider.toNat + 1)).map (⟨position.1, position.2, ·⟩)

def exhausted (failureChain : List String) : KelvinError :=
  .backend ("all model providers failed: " ++ " | ".intercalate failureChain)

def infer : FailoverAction σ ModelOutput := do
  match ← loop (fun position => loop (p.tryOnce input) (p.attemptsAt position))
      p.providers.zipIdx [] with
  | .inl output => pure output
  | .inr failureChain => fail (exhausted failureChain)

def calls (s : σ) : List (ℕ × ModelInput) :=
  (p.infer input s).journal.filterMap FailoverEvent.call?

/-! ### The answers -/

def attempts : List (FailoverAttempt σ) := p.providers.zipIdx.flatMap p.attemptsAt

/-- What a list of attempts answers, if they are made one after the other. -/
def answersOf : List (FailoverAttempt σ) → σ → List (KelvinResult ModelOutput)
  | [], _ => []
  | a :: rest, s => (a.provider.infer input s).1 :: answersOf rest (a.provider.infer input s).2

def answers (s : σ) : List (KelvinResult ModelOutput) := answersOf input p.attempts s

/-- The failures that are to be reported: for each provider, in order, and each attempt at it, a
line with the names of the provider and of its model, the number of the attempt, and the error. -/
def failureList (errors : List KelvinError) : List String :=
  List.zipWith
    (fun (provider, attempt) err =>
      provider.providerName ++ "/" ++ provider.modelName ++ " attempt " ++
        toString (min (attempt + 1) 255) ++ ": " ++ err.toString)
    (p.providers.flatMap fun provider =>
      (List.range (p.maxRetriesPerProvider.toNat + 1)).map (provider, ·))
    errors

end FailoverModelProvider

def IsRetryableFailure (answer : KelvinResult ModelOutput) : Prop :=
  ∃ err, answer = .error err ∧ isRetryable err

/-- The answer that ends the search is the one at index `k`. -/
structure FirstDecisive (answers : List (KelvinResult ModelOutput)) (k : ℕ)
    (answer : KelvinResult ModelOutput) : Prop where
  at_index : answers[k]? = some answer
  decisive : ¬ IsRetryableFailure answer
  earlier : ∀ before ∈ answers.take k, IsRetryableFailure before

/-- The search ends with the head, or with an answer of the tail after a head that may be
doubted. -/
theorem FirstDecisive.cons_cases {head answer : KelvinResult ModelOutput}
    {answers : List (KelvinResult ModelOutput)} {k : ℕ}
    (first : FirstDecisive (head :: answers) k answer) :
    (k = 0 ∧ head = answer ∧ ¬ IsRetryableFailure head) ∨
      ∃ later, k = later + 1 ∧ IsRetryableFailure head ∧ FirstDecisive answers later answer := by
  cases k with
  | zero =>
    obtain rfl : head = answer := by simpa using first.at_index
    exact .inl ⟨rfl, rfl, first.decisive⟩
  | succ later =>
    have doubted := first.earlier
    rw [List.take_succ_cons, List.forall_mem_cons] at doubted
    exact .inr ⟨later, rfl, doubted.1, by simpa using first.at_index, first.decisive, doubted.2⟩

theorem exists_firstDecisive_or_exhausted (answers : List (KelvinResult ModelOutput)) :
    (∃ k answer, FirstDecisive answers k answer) ∨
      ∃ errors : List KelvinError, answers = errors.map .error ∧
        ∀ err ∈ errors, isRetryable err := by
  induction answers with
  | nil => exact .inr ⟨[], rfl, by simp⟩
  | cons head answers ih =>
    by_cases doubted : IsRetryableFailure head
    · rcases ih with ⟨k, answer, first⟩ | ⟨errors, rfl, again⟩
      · refine .inl ⟨k + 1, answer, by simpa using first.at_index, first.decisive, ?_⟩
        rw [List.take_succ_cons, List.forall_mem_cons]
        exact ⟨doubted, first.earlier⟩
      · obtain ⟨err, rfl, more⟩ := doubted
        exact .inr ⟨err :: errors, rfl, List.forall_mem_cons.mpr ⟨more, again⟩⟩
    · exact .inl ⟨0, head, rfl, doubted, by simp⟩

namespace FailoverModelProvider

variable {σ : Type} (p : FailoverModelProvider σ) (input : ModelInput)

/-! ### One attempt -/

variable {p input} {a : FailoverAttempt σ} {s : σ}

theorem tryOnce_of_output {output : ModelOutput} (failureChain : List String)
    (answered : (a.provider.infer input s).1 = .ok output) :
    p.tryOnce input a failureChain s =
      ⟨.ok (.inl output), (a.provider.infer input s).2, [.called a.position input]⟩ := by
  have asked : Action.attempt (ask input a) s =
      ⟨.ok (.ok output), (a.provider.infer input s).2, [.called a.position input]⟩ := by
    rw [attempt_apply, ask, answered]
  unfold tryOnce
  rw [bind_apply_ok asked]
  rfl

theorem tryOnce_of_refusal {err : KelvinError} (failureChain : List String)
    (answered : (a.provider.infer input s).1 = .error err) (final : ¬ isRetryable err) :
    p.tryOnce input a failureChain s =
      ⟨.error err, (a.provider.infer input s).2, [.called a.position input]⟩ := by
  have asked : Action.attempt (ask input a) s =
      ⟨.ok (.error err), (a.provider.infer input s).2, [.called a.position input]⟩ := by
    rw [attempt_apply, ask, answered]
  unfold tryOnce
  rw [bind_apply_ok asked]
  simp only [if_pos final]
  rfl

theorem pause_apply (p : FailoverModelProvider σ) (attempt : ℕ) (s : σ) :
    ∃ pauses, p.pause attempt s = ⟨.ok ⟨⟩, s, pauses⟩ ∧
      pauses.filterMap FailoverEvent.call? = [] := by
  unfold pause
  split
  · exact ⟨_, rfl, rfl⟩
  · exact ⟨_, rfl, rfl⟩

theorem tryOnce_of_retryable {err : KelvinError} (failureChain : List String)
    (answered : (a.provider.infer input s).1 = .error err) (again : isRetryable err) :
    ∃ events, p.tryOnce input a failureChain s =
        ⟨.ok (.inr (failureChain ++ [failureLine a err])), (a.provider.infer input s).2, events⟩ ∧
      events.filterMap FailoverEvent.call? = [(a.position, input)] := by
  have asked : Action.attempt (ask input a) s =
      ⟨.ok (.error err), (a.provider.infer input s).2, [.called a.position input]⟩ := by
    rw [attempt_apply, ask, answered]
  obtain ⟨pauses, paused, silent⟩ := p.pause_apply a.attempt (a.provider.infer input s).2
  refine ⟨.called a.position input :: pauses, ?_, by simp [FailoverEvent.call?, silent]⟩
  unfold tryOnce
  rw [bind_apply_ok asked]
  simp only [not_true, again, if_false]
  rw [bind_apply_ok paused]
  simp [pure]

/-! ### A list of attempts -/

def callOf (input : ModelInput) (a : FailoverAttempt σ) : ℕ × ModelInput := (a.position, input)

theorem loop_of_firstDecisive {answer : KelvinResult ModelOutput} {k : ℕ}
    (xs : List (FailoverAttempt σ)) (failureChain : List String) (s : σ)
    (first : FirstDecisive (answersOf input xs s) k answer) :
    ∃ t events, loop (p.tryOnce input) xs failureChain s = ⟨answer.map Sum.inl, t, events⟩ ∧
      events.filterMap FailoverEvent.call? = (xs.take (k + 1)).map (callOf input) := by
  induction xs generalizing failureChain s k with
  | nil => simpa [answersOf] using first.at_index
  | cons a xs ih =>
    rw [answersOf] at first
    rcases first.cons_cases with ⟨rfl, rfl, decisive⟩ | ⟨later, rfl, ⟨err, failed, again⟩, rest⟩
    · cases answered : (a.provider.infer input s).1 with
      | ok output =>
        refine ⟨(a.provider.infer input s).2, [.called a.position input], ?_, rfl⟩
        rw [loop, bind_apply_ok (tryOnce_of_output failureChain answered)]
        rfl
      | error err =>
        have final : ¬ isRetryable err := fun again => decisive ⟨err, answered, again⟩
        refine ⟨(a.provider.infer input s).2, [.called a.position input], ?_, rfl⟩
        have refused := tryOnce_of_refusal (p := p) failureChain answered final
        rw [loop, bind_apply_of_error (congrArg Outcome.result refused), refused]
        rfl
    · obtain ⟨events, tried, called⟩ :=
        tryOnce_of_retryable (p := p) failureChain failed again
      obtain ⟨t, more, looped, calledLater⟩ :=
        ih (failureChain ++ [failureLine a err]) (a.provider.infer input s).2 rest
      refine ⟨t, events ++ more, ?_, ?_⟩
      · rw [loop, bind_apply_ok tried, orReturn, looped]
      · rw [List.filterMap_append, called, calledLater]
        rfl

/-- After retryable failures only, the loop has called everything and noted every failure. -/
theorem loop_of_exhausted {errors : List KelvinError} (xs : List (FailoverAttempt σ))
    (failureChain : List String) (s : σ) (failed : answersOf input xs s = errors.map .error)
    (again : ∀ err ∈ errors, isRetryable err) :
    ∃ t events, loop (p.tryOnce input) xs failureChain s =
        ⟨.ok (.inr (failureChain ++ List.zipWith failureLine xs errors)), t, events⟩ ∧
      events.filterMap FailoverEvent.call? = xs.map (callOf input) := by
  induction xs generalizing failureChain s errors with
  | nil => exact ⟨s, [], by simp [loop, pure], rfl⟩
  | cons a xs ih =>
    cases errors with
    | nil => simp [answersOf] at failed
    | cons err errors =>
      rw [answersOf, List.map_cons, List.cons.injEq] at failed
      rw [List.forall_mem_cons] at again
      obtain ⟨events, tried, called⟩ :=
        tryOnce_of_retryable (p := p) failureChain failed.1 again.1
      obtain ⟨t, more, looped, calledLater⟩ :=
        ih (failureChain ++ [failureLine a err]) (a.provider.infer input s).2 failed.2 again.2
      refine ⟨t, events ++ more, ?_, ?_⟩
      · rw [loop, bind_apply_ok tried, orReturn, looped, List.zipWith_cons_cons,
          List.append_assoc, List.singleton_append]
      · rw [List.filterMap_append, called, calledLater]
        rfl

/-! ### All providers -/

theorem infer_eq_loop_attempts (p : FailoverModelProvider σ) (input : ModelInput) :
    p.infer input = loop (p.tryOnce input) p.attempts [] >>= fun step =>
      match step with
      | .inl output => pure output
      | .inr failureChain => fail (exhausted failureChain) := by
  unfold infer attempts
  rw [loop_loop]

theorem calls_of_attempts (p : FailoverModelProvider σ) (input : ModelInput) :
    p.attempts.map (callOf input) = (List.range p.providers.length).flatMap fun position =>
      List.replicate (p.maxRetriesPerProvider.toNat + 1) (position, input) := by
  have one : ∀ position : ModelProvider σ × ℕ, (p.attemptsAt position).map (callOf input) =
      List.replicate (p.maxRetriesPerProvider.toNat + 1) (position.2, input) := by
    intro position
    unfold attemptsAt
    rw [List.map_map]
    exact List.eq_replicate_iff.mpr ⟨by simp, by simp [callOf]⟩
  unfold attempts
  rw [List.map_flatMap, funext one, List.range_eq_range', ← List.zipIdx_map_snd 0 p.providers,
    List.flatMap_map]

theorem failureLines_of_attempts (p : FailoverModelProvider σ) (errors : List KelvinError) :
    List.zipWith failureLine p.attempts errors = p.failureList errors := by
  have one : ∀ position : ModelProvider σ × ℕ,
      (p.attemptsAt position).map (fun a => (a.provider, a.attempt)) =
        (List.range (p.maxRetriesPerProvider.toNat + 1)).map (position.1, ·) := by
    intro position
    rw [attemptsAt, List.map_map]
    rfl
  have all : p.attempts.map (fun a => (a.provider, a.attempt)) =
      p.providers.flatMap fun provider =>
        (List.range (p.maxRetriesPerProvider.toNat + 1)).map (provider, ·) := by
    unfold attempts
    rw [List.map_flatMap, funext one]
    conv_rhs => rw [← List.zipIdx_map_fst 0 p.providers, List.flatMap_map]
  rw [failureList, ← all, List.zipWith_map_left]
  rfl

/-- Either one of the answers is the first that is decisive, or all of them are failures that
may be repeated. The result of a search is the first decisive answer, in the order of the
attempts, and nothing is called after it. When all attempts fail and may be repeated, every
provider has been called once more than the number of retries, in order, and the result lists
the failures in this order, each in a line of its own. -/
theorem infer_returns_first_decisive_answer (p : FailoverModelProvider σ) (input : ModelInput)
    (s : σ) :
    ((∃ k answer, FirstDecisive (p.answers input s) k answer) ∨
      ∃ errors : List KelvinError, p.answers input s = errors.map .error ∧
        ∀ err ∈ errors, isRetryable err) ∧
    (∀ k answer, FirstDecisive (p.answers input s) k answer →
      (p.infer input s).result = answer ∧
      p.calls input s = (p.attempts.take (k + 1)).map (callOf input)) ∧
    (∀ errors, p.answers input s = errors.map .error → (∀ err ∈ errors, isRetryable err) →
      (p.infer input s).result = .error (.backend ("all model providers failed: " ++
        " | ".intercalate (p.failureList errors))) ∧
      p.calls input s = (List.range p.providers.length).flatMap fun position =>
        List.replicate (p.maxRetriesPerProvider.toNat + 1) (position, input)) := by
  unfold calls
  rw [infer_eq_loop_attempts]
  refine ⟨exists_firstDecisive_or_exhausted _, ?_, ?_⟩
  · intro k answer first
    obtain ⟨t, events, looped, called⟩ := loop_of_firstDecisive (p := p) p.attempts [] s first
    cases answer with
    | ok output =>
      rw [bind_apply_ok looped]
      refine ⟨rfl, ?_⟩
      rw [← called]
      simp [pure]
    | error err =>
      have failed := congrArg Outcome.result looped
      rw [bind_apply_of_error failed, looped]
      exact ⟨rfl, called⟩
  · intro errors failed again
    obtain ⟨t, events, looped, called⟩ := loop_of_exhausted (p := p) p.attempts [] s failed again
    rw [bind_apply_ok looped, ← calls_of_attempts, ← called, ← failureLines_of_attempts]
    simp [fail, exhausted]

end FailoverModelProvider

end KelvinClaw.Sdk
