import Mathlib
import RecordQuery.Proofs.Compile.Acceptance
import RecordQuery.Proofs.Evaluation.Complement

/-!
# Compiled queries mean what they say

Simplifying a tree carries its negations down to the tests, drops groups of one operand and turns
lists of one constant into equalities. Each of these leaves the evaluation as it was
(`Condition.isTrue_simplify`), so a compiled query evaluates as the syntax tree that was written.
-/

namespace RecordQuery

variable {α ρ σ ε : Type}

/-- Literals are equal in order if they are equal. -/
theorem Literal.isEq_order (a b : Literal) : (a.order b).isEq = (a == b) := by
  cases a with
  | integer m =>
    cases b with
    | integer n =>
      by_cases same : m = n
      · subst same
        simp [order, compareOfLessAndEq]
      · have differ : (Literal.integer m == .integer n) = false := by simpa using same
        rw [differ, order, compareOfLessAndEq, if_neg same]
        split <;> rfl
    | text t => rfl
  | text s =>
    cases b with
    | integer n => rfl
    | text t =>
      by_cases same : s = t
      · subst same
        simp [order, compareOfLessAndEq]
      · have differ : (Literal.text s == .text t) = false := by simpa using same
        rw [differ, order, compareOfLessAndEq, if_neg same]
        split <;> rfl

/-- Membership in a list of one constant is a comparison with it. -/
theorem Choices.contains_singleton (a b : Literal) (negated : Bool) :
    ((singleton b).contains a != negated) =
      (if negated then Relation.unequal else Relation.equal).between a b := by
  have found : (singleton b).contains a = (a.order b).isEq := by
    rw [contains, toList_singleton, List.contains_cons, List.contains_nil, Bool.or_false,
      Literal.isEq_order]
  rw [found]
  unfold Relation.between
  cases negated with
  | true => cases a.order b <;> rfl
  | false => cases a.order b <;> rfl

namespace Test

/-- A test for membership in a list of one constant runs as the comparison with the constant. -/
theorem check_member_singleton (host : Host α ρ σ ε) (c : Call α) (target : Literal)
    (negated : Bool) :
    check host (compare c (if negated then .unequal else .equal) target) =
      check host (member c (.singleton target) negated) := by
  have type : (Choices.singleton target).type = target.type := by
    cases target <;> rfl
  simp only [check, type, Choices.contains_singleton]

theorem check_unlist (host : Host α ρ σ ε) (t : Test α) : t.unlist.check host = t.check host := by
  cases t with
  | member c choices negated =>
    -- lists of none, of one and of more constants, of either type
    rcases choices with (_ | ⟨n, _ | _⟩) | (_ | ⟨s, _ | _⟩)
    case integers.cons.nil => exact check_member_singleton host c (.integer n) negated
    case texts.cons.nil => exact check_member_singleton host c (.text s) negated
    all_goals rfl
  | _ => rfl

end Test

namespace Condition

/-- A simplified condition evaluates as the condition does. -/
theorem isTrue_simplify (host : Host α ρ σ ε) (c : Condition α) :
    c.simplify.isTrue host = c.isTrue host := by
  have leaves : ∀ (negated : Bool) (t : Test α),
      Test.check host (if negated then t.unlist.negate else t.unlist) =
        (· ^^ negated) <$> t.check host := by
    intro negated t
    cases negated with
    | true => simp only [if_true, Test.check_negate, Test.check_unlist, Bool.xor_true]
    | false =>
      simp only [Bool.false_eq_true, if_false, Test.check_unlist, Bool.xor_false, id_map']
  unfold isTrue simplify
  rw [Formula.holds_settle leaves false c]
  simp only [Bool.xor_false, id_map']

end Condition

/-- A compiled query and the query's syntax tree as it was written, with its accessors put in, cannot
    be told apart by evaluating them: they make the same invocations in the same order, answer the
    same or fail with the same error, and leave the same context and the same host. The syntax tree
    is the only one that the grammar gives the query. -/
theorem Registry.observe_of_compile (registry : Registry α) (query : String) (c : Condition α)
    (compiled : registry.compile query = .ok c) :
    ∃ w u,
      (∀ v, Grammar.Derives .condition maxNesting (tokenize query) v ↔ v = w) ∧
      registry.boundTree? w = some u ∧
      ∀ {ρ σ ε : Type} (host : Host α ρ σ ε) (context : Context ρ) (state : σ),
        c.observe host context state = u.observe host context state := by
  obtain ⟨w, u, derived, bound, rfl⟩ := (registry.compile_eq_ok_iff_derives query c).mp compiled
  refine ⟨w, u, fun v => ⟨fun other => other.unique derived, ?_⟩, bound, ?_⟩
  · rintro rfl
    exact derived
  · intro ρ σ ε host context state
    unfold Condition.observe
    rw [Condition.isTrue_simplify]

/-- A negated group is compiled to a conjunction of complements, and evaluates as it was written. -/
theorem Registry.observe_negated_group :
    let registry : Registry Bool := { integerFallback := some true }
    let query := "NOT (a(1) IN (2) OR NOT b(3))"
    let c : Condition Bool := .all [
      .test (.compare ⟨"a", .integer 1, true, false⟩ .unequal (.integer 2)),
      .test (.call ⟨"b", .integer 3, true, false⟩)]
    registry.compile query = .ok c ∧
      ∃ w u,
        (∀ v, Grammar.Derives .condition maxNesting (tokenize query) v ↔ v = w) ∧
        registry.boundTree? w = some u ∧
        ∀ {ρ σ ε : Type} (host : Host Bool ρ σ ε) (context : Context ρ) (state : σ),
          c.observe host context state = u.observe host context state := by
  intro registry query c
  have compiled : registry.compile query = .ok c := by cbv
  exact ⟨compiled, registry.observe_of_compile query c compiled⟩

end RecordQuery
