import RecordQuery.Formula

/-!
# Trying a formula

How the answer of a formula changes when the formula is negated or settled. Tests are tried in any
lawful monad, so the equations hold of everything that a trial does besides answering: which tests it
reaches, in which order, and where it breaks off. The two kinds of group are treated as one: a
conjunction goes on while its operands answer `true`, a disjunction while they answer `false`.
-/

namespace RecordQuery.Formula

variable {τ υ : Type} {m : Type → Type} [Monad m]

/-- Whether a group of formulas holds: a conjunction if `every`, else a disjunction. -/
def groupHolds (check : τ → m Bool) (every : Bool) (fs : List (Formula τ)) : m Bool :=
  if every then allHold check fs else anyHolds check fs

theorem groupHolds_nil (check : τ → m Bool) (every : Bool) :
    groupHolds check every [] = pure every := by
  cases every <;> rfl

/-- The first operand that does not answer `every` decides the group. -/
theorem groupHolds_cons (check : τ → m Bool) (every : Bool) (f : Formula τ)
    (fs : List (Formula τ)) :
    groupHolds check every (f :: fs) = do
      let b ← holds check f
      if b = every then groupHolds check every fs else return b := by
  cases every with
  | true =>
    simp only [groupHolds, if_true, allHold]
    refine congrArg (holds check f >>= ·) (funext fun b => ?_)
    cases b <;> rfl
  | false =>
    simp only [groupHolds, Bool.false_eq_true, if_false, anyHolds]
    refine congrArg (holds check f >>= ·) (funext fun b => ?_)
    cases b <;> rfl

variable [LawfulMonad m]

theorem groupHolds_singleton (check : τ → m Bool) (every : Bool) (f : Formula τ) :
    groupHolds check every [f] = holds check f := by
  have answers : ∀ b : Bool,
      (if b = every then groupHolds check every [] else pure b) = (pure b : m Bool) := by
    intro b
    by_cases same : b = every
    · rw [if_pos same, groupHolds_nil, same]
    · rw [if_neg same]
  rw [groupHolds_cons]
  simp only [answers, bind_pure]

/-- The operands of a group are tried as those of its beginning and, unless these decide it, as those
    of its end. -/
theorem groupHolds_append (check : τ → m Bool) (every : Bool) (fs gs : List (Formula τ)) :
    groupHolds check every (fs ++ gs) = do
      let b ← groupHolds check every fs
      if b = every then groupHolds check every gs else return b := by
  induction fs with
  | nil => rw [List.nil_append, groupHolds_nil, pure_bind, if_pos rfl]
  | cons f fs ih =>
    rw [List.cons_append, groupHolds_cons, groupHolds_cons, bind_assoc]
    refine bind_congr fun b => ?_
    by_cases same : b = every
    · rw [if_pos same, if_pos same, ih]
    · rw [if_neg same, if_neg same, pure_bind, if_neg same]

theorem holds_conjunction (check : τ → m Bool) (fs : List (Formula τ)) :
    holds check (conjunction fs) = groupHolds check true fs := by
  unfold conjunction
  split
  · exact (groupHolds_singleton check true _).symm
  · rw [holds, groupHolds, if_pos rfl]

theorem holds_disjunction (check : τ → m Bool) (fs : List (Formula τ)) :
    holds check (disjunction fs) = groupHolds check false fs := by
  unfold disjunction
  split
  · exact (groupHolds_singleton check false _).symm
  · rw [holds, groupHolds, if_neg Bool.false_ne_true]

/-- Alternatives are tried in turn, whether or not they are grouped. -/
theorem holds_disjunction_append (check : τ → m Bool) (fs gs : List (Formula τ)) :
    holds check (disjunction (fs ++ gs)) = holds check (.any [disjunction fs, disjunction gs]) := by
  have pair : holds check (.any [disjunction fs, disjunction gs]) =
      groupHolds check false [disjunction fs, disjunction gs] := rfl
  rw [pair, groupHolds_cons, groupHolds_singleton, holds_disjunction, holds_disjunction,
    holds_disjunction, groupHolds_append]

mutual

/-- The complement answers the opposite, having tried the same tests. -/
theorem holds_negate {flip : τ → τ} {check : τ → m Bool}
    (flipped : ∀ t, check (flip t) = (!·) <$> check t) :
    ∀ f : Formula τ, holds check (negate flip f) = (!·) <$> holds check f
  | all fs => groupHolds_negateAll flipped true fs
  | any fs => groupHolds_negateAll flipped false fs
  | not f => by simp [negate, holds]
  | test t => by simpa only [negate, holds] using flipped t

/-- The complements of a group's operands decide the other kind of group at the same place. -/
theorem groupHolds_negateAll {flip : τ → τ} {check : τ → m Bool}
    (flipped : ∀ t, check (flip t) = (!·) <$> check t) (every : Bool) :
    ∀ fs : List (Formula τ),
      groupHolds check (!every) (negateAll flip fs) = (!·) <$> groupHolds check every fs
  | [] => by simp only [negateAll, groupHolds_nil, map_pure]
  | f :: fs => by
    rw [negateAll, groupHolds_cons, groupHolds_cons, holds_negate flipped f, bind_map_left,
      map_bind]
    refine bind_congr fun b => ?_
    by_cases same : b = every
    · rw [if_pos (congrArg _ same), if_pos same]
      exact groupHolds_negateAll flipped every fs
    · rw [if_neg (fun h => same (Bool.not_inj h)), if_neg same, map_pure]

end

mutual

/-- A settled formula answers as the formula does, and the opposite where it was settled under a
    negation. The tests that it tries are the leaves put in place of the formula's own. -/
theorem holds_settle {leaf : Bool → τ → υ} {check : υ → m Bool} {written : τ → m Bool}
    (leaves : ∀ b t, check (leaf b t) = (· ^^ b) <$> written t) (negated : Bool) :
    ∀ f : Formula τ, holds check (settle leaf negated f) = (· ^^ negated) <$> holds written f
  | all fs => by
    have group := groupHolds_settleAll leaves negated true fs
    cases negated with
    | true =>
      rw [settle, if_pos rfl, holds_disjunction]
      exact group
    | false =>
      rw [settle, if_neg Bool.false_ne_true, holds_conjunction]
      exact group
  | any fs => by
    have group := groupHolds_settleAll leaves negated false fs
    cases negated with
    | true =>
      rw [settle, if_pos rfl, holds_conjunction]
      exact group
    | false =>
      rw [settle, if_neg Bool.false_ne_true, holds_disjunction]
      exact group
  | not f => by
    simp only [settle, holds, holds_settle leaves (!negated) f, bind_pure_comp, Functor.map_map]
    refine congrArg (· <$> holds written f) (funext fun b => ?_)
    cases b <;> cases negated <;> rfl
  | test t => by simpa only [settle, holds] using leaves negated t

theorem groupHolds_settleAll {leaf : Bool → τ → υ} {check : υ → m Bool} {written : τ → m Bool}
    (leaves : ∀ b t, check (leaf b t) = (· ^^ b) <$> written t) (negated every : Bool) :
    ∀ fs : List (Formula τ),
      groupHolds check (every ^^ negated) (settleAll leaf negated fs) =
        (· ^^ negated) <$> groupHolds written every fs
  | [] => by simp only [settleAll, groupHolds_nil, map_pure]
  | f :: fs => by
    rw [settleAll, groupHolds_cons, groupHolds_cons, holds_settle leaves negated f, bind_map_left,
      map_bind]
    refine bind_congr fun b => ?_
    by_cases same : b = every
    · rw [if_pos (congrArg (· ^^ negated) same), if_pos same]
      exact groupHolds_settleAll leaves negated every fs
    · rw [if_neg (fun h => same (Bool.xor_left_inj.mp h)), if_neg same, map_pure]

end

end RecordQuery.Formula
