import RecordQuery.Proofs.Evaluation.Sequencing

/-!
# Steady accessors

An accessor that looks at nothing but its argument and the record answers the same, or fails in the same
way, whenever it is invoked. A test of such accessors has one outcome on a record, which does not depend
on what was evaluated before, and the outcome of a condition follows from those of its tests:
`Condition.comesTo_isTrue`.
-/

namespace RecordQuery

variable {α ρ σ ε β γ : Type}

/-- What the call's accessor answers on a record, or how it fails, does not depend on the state of the
    host. -/
def Call.Steady (host : Host α ρ σ ε) (record : ρ) (c : Call α) : Prop :=
  ∀ state state', (host.run c.accessor c.name c.argument record state).1 =
    (host.run c.accessor c.name c.argument record state').1

namespace Evaluation

/-- On a record the computation has this outcome, whatever was evaluated before. -/
def ComesTo (record : ρ) (e : Evaluation ρ σ ε β) : Except (EvalFault ε) β → Prop
  | .ok b => ∀ s, s.context.record = record → ∃ s', s'.context.record = record ∧ e s = .ok b s'
  | .error fault => ∀ s, s.context.record = record → ∃ s', e s = .error fault s'

variable {record : ρ} {e : Evaluation ρ σ ε β} {f : β → Evaluation ρ σ ε γ}

theorem comesTo_pure (b : β) : ComesTo record (pure b : Evaluation ρ σ ε β) (.ok b) := by
  intro s here
  exact ⟨s, here, rfl⟩

theorem comesTo_throw (fault : EvalFault ε) :
    ComesTo record (throw fault : Evaluation ρ σ ε β) (.error fault) := by
  intro s here
  exact ⟨s, rfl⟩

theorem comesTo_keepAnswer (v : Value) :
    ComesTo record (keepAnswer v : Evaluation ρ σ ε Unit) (.ok ()) := by
  intro s here
  exact ⟨{ s with context.last := some v }, here, rfl⟩

/-- After a first computation that has an outcome the second one is run on the same record. -/
theorem ComesTo.bind {o : Except (EvalFault ε) β} {g : β → Except (EvalFault ε) γ}
    (first : ComesTo record e o) (next : ∀ b, ComesTo record (f b) (g b)) :
    ComesTo record (e >>= f) (o >>= g) := by
  cases o with
  | error fault =>
    intro s here
    obtain ⟨s', run⟩ := first s here
    refine ⟨s', ?_⟩
    simp only [Bind.bind, EStateM.bind, run]
  | ok b =>
    have goesOn : ∀ s, s.context.record = record →
        ∃ s', s'.context.record = record ∧ (e >>= f) s = f b s' := by
      intro s here
      obtain ⟨s', here', run⟩ := first s here
      refine ⟨s', here', ?_⟩
      simp only [Bind.bind, EStateM.bind, run]
    show ComesTo record (e >>= f) (g b)
    have second := next b
    generalize g b = o at second
    cases o with
    | ok c =>
      intro s here
      obtain ⟨s', here', same⟩ := goesOn s here
      rw [same]
      exact second s' here'
    | error fault =>
      intro s here
      obtain ⟨s', here', same⟩ := goesOn s here
      rw [same]
      exact second s' here'

/-- The outcome of computations that are run one after another follows from their outcomes. -/
theorem tracks_comesTo (record : ρ) :
    Tracks (Evaluation ρ σ ε) (Except (EvalFault ε)) fun _ => ComesTo record :=
  ⟨comesTo_pure, ComesTo.bind⟩

/-- A computation has one outcome on a record. -/
theorem ComesTo.eq_of_ok {o : Except (EvalFault ε) β} (comes : ComesTo record e o)
    {s s' : EvalState ρ σ} (here : s.context.record = record) {b : β} (run : e s = .ok b s') :
    o = .ok b := by
  cases o with
  | ok c =>
    obtain ⟨s'', _, run'⟩ := comes s here
    rw [run] at run'
    cases run'
    rfl
  | error fault =>
    obtain ⟨s'', run'⟩ := comes s here
    rw [run] at run'
    cases run'

/-- On a record the computation has an outcome that does not depend on what was evaluated before. -/
def Settled (record : ρ) (e : Evaluation ρ σ ε β) : Prop :=
  ∃ o, ComesTo record e o

theorem settled_pure (b : β) : Settled record (pure b : Evaluation ρ σ ε β) :=
  ⟨_, comesTo_pure b⟩

theorem settled_throw (fault : EvalFault ε) : Settled record (throw fault : Evaluation ρ σ ε β) :=
  ⟨_, comesTo_throw fault⟩

theorem Settled.bind (first : Settled record e) (next : ∀ b, Settled record (f b)) :
    Settled record (e >>= f) := by
  obtain ⟨o, first⟩ := first
  exact ⟨_, first.bind fun b => (next b).choose_spec⟩

/-- A computation has an outcome if its parts have. -/
theorem compositional_settled (record : ρ) :
    Compositional (ρ := ρ) (σ := σ) (ε := ε) fun _ => Settled record :=
  ⟨settled_pure, settled_throw, fun v => ⟨_, comesTo_keepAnswer v⟩, Settled.bind⟩

end Evaluation

open Evaluation

variable {host : Host α ρ σ ε} {record : ρ}

namespace Call

theorem invoke_eq (host : Host α ρ σ ε) (c : Call α) (s : EvalState ρ σ) :
    c.invoke host s =
      let after := { s with host := (host.run c.accessor c.name c.argument s.context.record s.host).2 }
      match (host.run c.accessor c.name c.argument s.context.record s.host).1 with
      | .ok v => .ok v after
      | .error failure => .error (.host failure) after := by
  rw [invoke]
  rcases host.run c.accessor c.name c.argument s.context.record s.host with ⟨failure | v, state⟩
  · rfl
  · rfl

/-- A steady call has one outcome. -/
theorem Steady.settled_invoke {c : Call α} (steady : c.Steady host record) :
    Settled record (c.invoke host) := by
  by_cases some : Nonempty σ
  · obtain ⟨state⟩ := some
    cases answer : (host.run c.accessor c.name c.argument record state).1 with
    | ok v =>
      refine ⟨.ok v, ?_⟩
      intro s here
      rw [invoke_eq, here, steady s.host state, answer]
      refine ⟨_, ?_, rfl⟩
      exact here
    | error failure =>
      refine ⟨.error (.host failure), ?_⟩
      intro s here
      rw [invoke_eq, here, steady s.host state, answer]
      exact ⟨_, rfl⟩
  · -- without a state of the host nothing is ever invoked
    refine ⟨.ok .null, ?_⟩
    intro s here
    exact absurd ⟨s.host⟩ some

end Call

/-- A test of steady calls has one outcome. -/
theorem Test.settled_check {x : Test α} (steady : ∀ c ∈ x.calls, c.Steady host record) :
    Settled record (x.check host) :=
  (compositional_settled record).check fun c member => (steady c member).settled_invoke

/-- A condition comes to what its tests come to. -/
theorem Condition.comesTo_isTrue {c : Condition α} {outcome : Test α → Except (EvalFault ε) Bool}
    (tests : ∀ x ∈ c.tests, ComesTo record (x.check host) (outcome x)) :
    ComesTo record (c.isTrue host) (c.holds outcome) :=
  (tracks_comesTo record).holds c tests

end RecordQuery
