import RecordQuery.Proofs.Evaluation.Holds
import RecordQuery.Proofs.Evaluation.Observation

/-!
# Complements

The complement of a condition answers the opposite of the condition and does the same otherwise:
`observe_complement`. It holds test by test, and a group's complement stops at the same operand
(`Formula.holds_negate`).
-/

namespace RecordQuery

variable {α ρ σ ε : Type}

/-- Inverting a call's truth does not change how it runs. -/
theorem Call.eval_negate (host : Host α ρ σ ε) (c : Call α) :
    c.negate.eval host = c.eval host := rfl

/-- An error leaves nothing to do anything to. -/
theorem Evaluation.map_throw {β γ : Type} (f : β → γ) (fault : EvalFault ε) :
    f <$> (throw fault : Evaluation ρ σ ε β) = throw fault := rfl

/-- A negated test invokes the same accessors and answers the opposite. -/
theorem Test.check_negate (host : Host α ρ σ ε) (t : Test α) :
    t.negate.check host = (!·) <$> t.check host := by
  cases t with
  | call c =>
    simp only [negate, check, Call.eval_negate, map_bind, map_pure]
    refine bind_congr fun v => ?_
    rw [Call.negate, Bool.bne_not]
  | compare c r target =>
    simp only [negate, check, map_bind, map_pure, Relation.between_reverse]
  | compareCalls left r right =>
    simp only [negate, check, map_bind]
    refine bind_congr fun v => bind_congr fun w => ?_
    cases v with
    | integer m => simp only [Relation.between_reverse, map_bind, map_pure]
    | text s => simp only [Relation.between_reverse, map_bind, map_pure]
    | _ => rw [Evaluation.map_throw]
  | member c choices negated =>
    simp only [negate, check, map_bind, map_pure, Bool.bne_not]
  | memberCall left right negated =>
    simp only [negate, check, map_bind]
    refine bind_congr fun v => bind_congr fun w => ?_
    -- the flag is looked at only where both answers have usable types
    cases v <;> cases w <;> simp only [Evaluation.map_throw, map_pure, Bool.bne_not]

namespace Condition

/-- The complement evaluates as the condition does, to the opposite answer. -/
theorem isTrue_negate (host : Host α ρ σ ε) (c : Condition α) :
    c.negate.isTrue host = (!·) <$> c.isTrue host :=
  Formula.holds_negate (Test.check_negate host) c

theorem isTrue_not (host : Host α ρ σ ε) (c : Condition α) :
    isTrue host (.not c) = (!·) <$> c.isTrue host := by
  simp only [isTrue, Formula.holds, bind_pure_comp]

/-- The complement of a condition, and the condition under a negation, make the same invocations as
    the condition in the same order, fail with the same error and leave the same context and host;
    if there is an answer it is the opposite one. -/
theorem observe_complement (host : Host α ρ σ ε) (c : Condition α) (context : Context ρ)
    (state : σ) :
    c.negate.observe host context state = (c.observe host context state).complement ∧
      observe host (.not c) context state = (c.observe host context state).complement := by
  unfold observe
  rw [isTrue_negate, isTrue_not, Observation.of_not]
  exact ⟨rfl, rfl⟩

end Condition

end RecordQuery
