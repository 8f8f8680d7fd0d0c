import Mathlib
import RecordQuery.Evaluation
import RecordQuery.Proofs.Compile.Shape
import RecordQuery.Proofs.Evaluation.Observation
import RecordQuery.Proofs.Evaluation.Sequencing
import RecordQuery.Proofs.Evaluation.Trials

/-!
# Only what is needed is evaluated

An evaluation of a condition is a series of trials of its tests, each of a test whose answer can still
matter, and each trial invokes the accessors of its test once: `isTrue_trials`. The accessors may keep a
state and may fail, so that a trial may come out differently from an earlier one of the same test; it is
the list of invocations in the state that shows what was run.
-/

namespace RecordQuery

variable {α ρ σ ε : Type}

/-- Whether the call's accessor fails on a record, in a state of the host. -/
def Call.Fails (host : Host α ρ σ ε) (c : Call α) (record : ρ) (state : σ) : Prop :=
  ∃ failure, (host.run c.accessor c.name c.argument record state).1 = .error failure

/-- The accessors that are invoked by a trial of the test between two states: all of its calls, from left
to right, or only the left one of two if that one fails. -/
def Test.Invokes (host : Host α ρ σ ε) (x : Test α)
    (before after : EvalState ρ (σ × List (Invocation α))) : Prop :=
  (after.host.2 = before.host.2 ++ x.calls.map Call.invocation ∧
    ∀ left right, x.calls = [left, right] →
      ¬ left.Fails host before.context.record before.host.1) ∨
  ∃ left right, x.calls = [left, right] ∧ left.Fails host before.context.record before.host.1 ∧
    after.host.2 = before.host.2 ++ [left.invocation]

namespace Evaluation

variable {β γ : Type}

/-- The state that a computation leaves behind, whether it succeeds or fails. -/
def stateOf {s : Type} : EStateM.Result (EvalFault ε) s β → s
  | .ok _ after => after
  | .error _ after => after

/-- A computation adds the given invocations to the list, whether it succeeds or fails. -/
def Logs (e : Evaluation ρ (σ × List (Invocation α)) ε β) (made : List (Invocation α)) : Prop :=
  ∀ s, (stateOf (e s)).host.2 = s.host.2 ++ made

theorem logs_pure (b : β) : Logs (pure b : Evaluation ρ (σ × List (Invocation α)) ε β) [] :=
  fun s => (List.append_nil s.host.2).symm

theorem logs_throw (fault : EvalFault ε) :
    Logs (throw fault : Evaluation ρ (σ × List (Invocation α)) ε β) [] :=
  fun s => (List.append_nil s.host.2).symm

theorem logs_keepAnswer (v : Value) :
    Logs (keepAnswer v : Evaluation ρ (σ × List (Invocation α)) ε Unit) [] :=
  fun s => (List.append_nil s.host.2).symm

/-- What comes after the invocations may look at their answers. -/
theorem Logs.bind {e : Evaluation ρ (σ × List (Invocation α)) ε β} {made : List (Invocation α)}
    {f : β → Evaluation ρ (σ × List (Invocation α)) ε γ} (first : Logs e made)
    (quiet : ∀ b, Logs (f b) []) : Logs (e >>= f) made := by
  intro s
  have invoked := first s
  simp only [Bind.bind, EStateM.bind]
  rcases result : e s with ⟨b, middle⟩ | ⟨fault, middle⟩
  · rw [result] at invoked
    show (stateOf (f b middle)).host.2 = s.host.2 ++ made
    rw [quiet b middle, List.append_nil]
    exact invoked
  · rw [result] at invoked
    exact invoked

/-- What invokes nothing can be put together from such parts. -/
theorem compositional_quiet :
    Compositional (ρ := ρ) (σ := σ × List (Invocation α)) (ε := ε) fun _ e => Logs e [] :=
  ⟨logs_pure, logs_throw, logs_keepAnswer, Logs.bind⟩

end Evaluation

open Evaluation

namespace Call

theorem logs_invoke (host : Host α ρ σ ε) (c : Call α) :
    Logs (c.invoke host.recording) [c.invocation] := by
  intro s
  rw [invoke_recording]
  rcases host.run c.accessor c.name c.argument s.context.record s.host.1 with ⟨failure | v, state⟩
  · rfl
  · rfl

theorem logs_eval (host : Host α ρ σ ε) (c : Call α) :
    Logs (c.eval host.recording) [c.invocation] :=
  (logs_invoke host c).bind fun v => (logs_keepAnswer v).bind fun _ => logs_pure v

end Call

namespace Test

variable {host : Host α ρ σ ε} {s : EvalState ρ (σ × List (Invocation α))}

/-- A test of one call invokes it. -/
theorem invokes_one {x : Test α} {c : Call α} (one : x.calls = [c])
    (rest : Value → Evaluation ρ (σ × List (Invocation α)) ε Bool) (quiet : ∀ v, Logs (rest v) []) :
    x.Invokes host s (stateOf ((c.eval host.recording >>= rest) s)) := by
  left
  refine ⟨?_, fun left right two => ?_⟩
  · rw [one]
    exact (c.logs_eval host).bind quiet s
  · rw [one] at two
    cases two

/-- A test of two calls invokes the right one if the left one does not fail. -/
theorem invokes_two {x : Test α} {left right : Call α} (two : x.calls = [left, right])
    (rest : Value → Value → Evaluation ρ (σ × List (Invocation α)) ε Bool)
    (quiet : ∀ v w, Logs (rest v w) []) :
    x.Invokes host s (stateOf
      ((left.invoke host.recording >>= fun v => right.eval host.recording >>= rest v) s)) := by
  simp only [Bind.bind, EStateM.bind, left.invoke_recording]
  rcases run : host.run left.accessor left.name left.argument s.context.record s.host.1 with
    ⟨failure | v, state⟩
  · right
    refine ⟨left, right, two, ⟨failure, ?_⟩, rfl⟩
    rw [run]
  · left
    refine ⟨?_, fun l r same => ?_⟩
    · have more := (right.logs_eval host).bind (quiet v)
        { s with host := (state, s.host.2 ++ [left.invocation]) }
      rw [List.append_assoc] at more
      rw [two]
      exact more
    · obtain ⟨rfl, _⟩ := List.cons.inj (two.symm.trans same)
      rintro ⟨failure, failed⟩
      rw [run] at failed
      cases failed

/-- A trial of a test invokes its calls. -/
theorem invokes_check (x : Test α) : x.Invokes host s (stateOf (x.check host.recording s)) := by
  cases x with
  | call c => exact invokes_one rfl _ fun v => logs_pure _
  | compare c r target =>
    exact invokes_one rfl _ fun v => (compositional_quiet.asType _ v).bind fun _ => logs_pure _
  | member c choices negated =>
    exact invokes_one rfl _ fun v => (compositional_quiet.asType _ v).bind fun _ => logs_pure _
  | compareCalls left r right =>
    refine invokes_two rfl _ fun v w => ?_
    cases v with
    | integer m => exact (compositional_quiet.asType _ w).bind fun _ => logs_pure _
    | text t => exact (compositional_quiet.asType _ w).bind fun _ => logs_pure _
    | _ => exact logs_throw _
  | memberCall left right negated =>
    refine invokes_two rfl _ fun v w => ?_
    cases v <;> cases w <;> first | exact logs_pure _ | exact logs_throw _

end Test

namespace Condition

open Formula Formula.Trial

/-- A compiled condition has no empty groups. Evaluating a condition without empty groups is a series of
    trials of its tests, numbered from left to right:
    - each trial is an evaluation of the test with its number, from the state in which the one before it
      ended, and invokes the calls of the test;
    - tests are tried from left to right, and none is tried twice;
    - a test is tried if and only if all trials before it came to an answer, and for some values of the
      tests that were not tried before it the truth value of the condition hangs on it;
    - if a trial fails, the evaluation fails with its error, and no test behind it is tried;
    - if none fails, the evaluation answers what the condition comes to under all assignments of truth
      values that agree with the trials. -/
theorem isTrue_trials (host : Host α ρ σ ε) (c : Condition α) :
    (∀ (registry : Registry α) (query : String), registry.compile query = .ok c → c.Full) ∧
    (c.Full → ∀ s : EvalState ρ (σ × List (Invocation α)),
      ∃ (trials : List (Trial (EvalFault ε) (EvalState ρ (σ × List (Invocation α)))))
        (last : EvalState ρ (σ × List (Invocation α))),
        Threads s trials last ∧
        (∀ t ∈ trials, ∃ x, (x, t.place) ∈ c.tests.zipIdx ∧ t.IsOf (x.check host.recording) ∧
          x.Invokes host t.before t.after) ∧
        trials.Pairwise (·.place < ·.place) ∧
        (∀ i < c.tests.length, (∃ t ∈ trials, t.place = i) ↔
          (∀ t ∈ earlier trials i, t.Answers) ∧ Matters (value · 0 c) (earlier trials i) i) ∧
        (∀ t ∈ trials, ∀ e, t.outcome = .error e →
          c.isTrue host.recording s = .error e last ∧ ∀ u ∈ trials, u.place ≤ t.place) ∧
        ((∀ t ∈ trials, t.Answers) → ∃ b, c.isTrue host.recording s = .ok b last ∧
          ∀ a, Agrees a trials → value a 0 c = b)) := by
  refine ⟨fun registry query compiled => registry.full_of_compile compiled, fun full s => ?_⟩
  obtain ⟨trials, last, h⟩ := full.exists_accounts 0 s
  refine ⟨trials, last, h.threads, fun t member => ?_, h.ordered, fun i below => ?_,
    fun t member e outcome => ⟨h.failed t member e outcome, fun u other => ?_⟩, h.answered⟩
  · obtain ⟨x, numbered, run⟩ := h.made t member
    refine ⟨x, numbered, run, ?_⟩
    have invoked : x.Invokes host t.before (Evaluation.stateOf (x.check host.recording t.before)) :=
      x.invokes_check
    have after : Evaluation.stateOf (x.check host.recording t.before) = t.after := by
      unfold Trial.IsOf at run
      split at run
      · rw [run]
        rfl
      · rw [run]
        rfl
    rwa [after] at invoked
  · exact h.needed i (Nat.zero_le i) (by rwa [Nat.zero_add])
  · -- a test behind a failed one would not have been needed
    apply Nat.le_of_not_lt
    intro behind
    have range := h.inside u other
    have before : t ∈ earlier trials u.place := List.mem_filter.mpr ⟨member, decide_eq_true behind⟩
    obtain ⟨b, answer⟩ := ((h.needed u.place range.1 range.2).mp ⟨u, other, rfl⟩).1 t before
    rw [outcome] at answer
    cases answer

/-- Where the first operand of a disjunction is true nothing else is tried, however the rest would come
    out. -/
theorem isTrue_trials_any :
    let registry : Registry Bool := { integerFallback := some true }
    let query := "a(1) OR b(2) AND NOT d(3)"
    let c : Condition Bool := .any [
      .test (.call ⟨"a", .integer 1, true, false⟩),
      .all [.test (.call ⟨"b", .integer 2, true, false⟩), .test (.call ⟨"d", .integer 3, true, true⟩)]]
    let host : Host Bool Unit Nat String := ⟨fun accessor _ _ _ n => (.ok (.boolean accessor), n + 1)⟩
    let s : EvalState Unit (Nat × List (Invocation Bool)) := ⟨⟨(), none⟩, (0, [])⟩
    registry.compile query = .ok c ∧
    ∃ (trials : List (Trial (EvalFault String) (EvalState Unit (Nat × List (Invocation Bool))))) (last : _),
      Threads s trials last ∧ trials.Pairwise (·.place < ·.place) ∧
      (∀ i < 3, (∃ t ∈ trials, t.place = i) ↔
        (∀ t ∈ earlier trials i, t.Answers) ∧ Matters (value · 0 c) (earlier trials i) i) ∧
      c.isTrue host.recording s = .ok true last ∧ (∀ a, Agrees a trials → value a 0 c = true) ∧
      last.host = (1, [⟨true, "a", .integer 1⟩]) := by
  intro registry query c host s
  have compiled : registry.compile query = .ok c := by cbv
  have full : c.Full := (isTrue_trials host c).1 registry query compiled
  obtain ⟨trials, last, threads, made, ordered, needed, failed, answered⟩ :=
    (isTrue_trials host c).2 full s
  have result : c.isTrue host.recording s =
      .ok true ⟨⟨(), some (.boolean true)⟩, (1, [⟨true, "a", .integer 1⟩])⟩ := rfl
  have all : ∀ t ∈ trials, t.Answers := by
    intro t member
    rcases outcome : t.outcome with e | b
    · have error := (failed t member e outcome).1
      rw [result] at error
      cases error
    · exact ⟨b, outcome⟩
  obtain ⟨b, answer, settled⟩ := answered all
  rw [result] at answer
  cases answer
  exact ⟨compiled, trials, _, threads, ordered, needed, result, settled, rfl⟩

end Condition

end RecordQuery
