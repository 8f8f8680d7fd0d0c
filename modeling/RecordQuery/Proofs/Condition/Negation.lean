import RecordQuery.Condition

/-!
# Negating simplified conditions

The complement of a simplified condition is what the negated condition is simplified to:
`Condition.simplify_not`. So negating twice comes back to a simplified condition.
-/

namespace RecordQuery

namespace Formula

variable {τ υ : Type}

theorem negate_conjunction (flip : τ → τ) (fs : List (Formula τ)) :
    negate flip (conjunction fs) = disjunction (negateAll flip fs) := by
  match fs with
  | [] | [_] | _ :: _ :: _ => rfl

theorem negate_disjunction (flip : τ → τ) (fs : List (Formula τ)) :
    negate flip (disjunction fs) = conjunction (negateAll flip fs) := by
  match fs with
  | [] | [_] | _ :: _ :: _ => rfl

mutual

/-- The complement of a settled formula is the formula settled under one more negation. -/
theorem negate_settle {flip : υ → υ} {leaf : Bool → τ → υ}
    (leaves : ∀ b t, flip (leaf b t) = leaf (!b) t) (negated : Bool) :
    ∀ f : Formula τ, negate flip (settle leaf negated f) = settle leaf (!negated) f
  | all fs => by
    have group := negateAll_settleAll leaves negated fs
    cases negated with
    | true => exact (negate_disjunction flip _).trans (congrArg conjunction group)
    | false => exact (negate_conjunction flip _).trans (congrArg disjunction group)
  | any fs => by
    have group := negateAll_settleAll leaves negated fs
    cases negated with
    | true => exact (negate_conjunction flip _).trans (congrArg disjunction group)
    | false => exact (negate_disjunction flip _).trans (congrArg conjunction group)
  | not f => negate_settle leaves (!negated) f
  | test t => congrArg test (leaves negated t)

theorem negateAll_settleAll {flip : υ → υ} {leaf : Bool → τ → υ}
    (leaves : ∀ b t, flip (leaf b t) = leaf (!b) t) (negated : Bool) :
    ∀ fs : List (Formula τ), negateAll flip (settleAll leaf negated fs) = settleAll leaf (!negated) fs
  | [] => rfl
  | f :: fs => by
    rw [settleAll, settleAll, negateAll, negate_settle leaves negated f,
      negateAll_settleAll leaves negated fs]

end

end Formula

/-- Negating a condition before or after it is simplified comes to the same. -/
theorem Condition.simplify_not {α : Type} (w : Condition α) :
    simplify (.not w) = (simplify w).negate := by
  refine (Formula.negate_settle (fun negated t => ?_) false w).symm
  cases negated with
  | true => exact Test.negate_negate _
  | false => rfl

/-- The complement of the complement of a simplified condition is that condition. -/
theorem Condition.negate_negate_simplify {α : Type} (w : Condition α) :
    (simplify w).negate.negate = simplify w := by
  rw [← simplify_not, ← simplify_not]
  rfl

end RecordQuery
