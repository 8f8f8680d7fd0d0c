import RecordQuery.Evaluation

/-!
# What an evaluation shows

An evaluation is seen from outside through its answer or error, the accessors that it invokes, and
what it leaves behind: the context with the latest answer, and the state of the host. Accessors may
keep a state and may fail, so an invocation too many or too few can be seen.
-/

namespace RecordQuery

namespace Call

variable {α ρ σ ε : Type}

/-- The use of a call's accessor. -/
def invocation (c : Call α) : Invocation α :=
  ⟨c.accessor, c.name, c.argument⟩

/-- A recording host answers as the host does. -/
theorem invoke_recording (host : Host α ρ σ ε) (c : Call α)
    (s : EvalState ρ (σ × List (Invocation α))) :
    c.invoke host.recording s =
      match host.run c.accessor c.name c.argument s.context.record s.host.1 with
      | (.ok v, state) => .ok v { s with host := (state, s.host.2 ++ [c.invocation]) }
      | (.error failure, state) =>
        .error (.host failure) { s with host := (state, s.host.2 ++ [c.invocation]) } := by
  have recorded : host.recording.run c.accessor c.name c.argument s.context.record s.host =
      ((host.run c.accessor c.name c.argument s.context.record s.host.1).1,
        (host.run c.accessor c.name c.argument s.context.record s.host.1).2,
        s.host.2 ++ [c.invocation]) := rfl
  rw [invoke, recorded]
  rcases host.run c.accessor c.name c.argument s.context.record s.host.1 with ⟨failure | v, state⟩
  · rfl
  · rfl

end Call

/-- All that can be seen of one evaluation. -/
structure Observation (α ρ σ ε : Type) where
  /-- The answer, or the error that ended the evaluation. -/
  outcome : Except (EvalFault ε) Bool
  /-- The accessors that were run, with their names and arguments, in order. -/
  invocations : List (Invocation α)
  context : Context ρ
  host : σ

namespace Observation

variable {α ρ σ ε : Type}

/-- The observation of a computation that lists its invocations, from a context and a state of the
    host. -/
def of (e : Evaluation ρ (σ × List (Invocation α)) ε Bool) (context : Context ρ) (state : σ) :
    Observation α ρ σ ε :=
  match e ⟨context, (state, [])⟩ with
  | .ok b s => ⟨.ok b, s.host.2, s.context, s.host.1⟩
  | .error fault s => ⟨.error fault, s.host.2, s.context, s.host.1⟩

/-- The same observation but for the answer, which is the opposite one; an error stays. -/
def complement (o : Observation α ρ σ ε) : Observation α ρ σ ε :=
  { o with outcome := o.outcome.map (!·) }

theorem of_not (e : Evaluation ρ (σ × List (Invocation α)) ε Bool) (context : Context ρ)
    (state : σ) : of ((!·) <$> e) context state = (of e context state).complement := by
  simp only [of, complement, Functor.map, EStateM.map]
  cases e ⟨context, (state, [])⟩ <;> rfl

end Observation

/-- The observation of a condition's evaluation. -/
def Condition.observe {α ρ σ ε : Type} (host : Host α ρ σ ε) (c : Condition α)
    (context : Context ρ) (state : σ) : Observation α ρ σ ε :=
  .of (c.isTrue host.recording) context state

end RecordQuery
