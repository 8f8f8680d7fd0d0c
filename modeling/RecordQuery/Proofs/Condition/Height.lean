import RecordQuery.Proofs.Compile.Shape

/-!
# Heights

How far down a walk through a formula has to go. A settled formula has no negations, so it is no
higher than the formula would be without its own (`height_settle_le`), however many there are.
-/

namespace RecordQuery.Formula

variable {τ υ : Type}

mutual

/-- The number of nodes on the longest path from the root to a leaf. -/
def height : Formula τ → Nat
  | all fs => heightAll fs + 1
  | any fs => heightAll fs + 1
  | not f => height f + 1
  | test _ => 1

/-- The height of the highest of some formulas. -/
def heightAll : List (Formula τ) → Nat
  | [] => 0
  | f :: fs => max (height f) (heightAll fs)

end

mutual

/-- The number of nodes on the longest path, negations not counted. -/
def levels : Formula τ → Nat
  | all fs => levelsAll fs + 1
  | any fs => levelsAll fs + 1
  | not f => levels f
  | test _ => 1

/-- The number of levels of the formula that has the most. -/
def levelsAll : List (Formula τ) → Nat
  | [] => 0
  | f :: fs => max (levels f) (levelsAll fs)

end

theorem levelsAll_append (fs gs : List (Formula τ)) :
    levelsAll (fs ++ gs) = max (levelsAll fs) (levelsAll gs) := by
  induction fs with
  | nil => simp [levelsAll]
  | cons f fs ih => simp only [List.cons_append, levelsAll, ih, Nat.max_assoc]

theorem height_conjunction_le (fs : List (Formula τ)) :
    height (conjunction fs) ≤ heightAll fs + 1 := by
  unfold conjunction
  split
  · simp only [heightAll]
    omega
  · exact Nat.le_refl _

theorem height_disjunction_le (fs : List (Formula τ)) :
    height (disjunction fs) ≤ heightAll fs + 1 := by
  unfold disjunction
  split
  · simp only [heightAll]
    omega
  · exact Nat.le_refl _

mutual

/-- Settling a formula takes its negations away and adds no level. -/
theorem height_settle_le (leaf : Bool → τ → υ) (negated : Bool) :
    ∀ f : Formula τ, height (settle leaf negated f) ≤ levels f
  | all fs | any fs => by
    have operands := heightAll_settleAll_le leaf negated fs
    have conjunction := height_conjunction_le (settleAll leaf negated fs)
    have disjunction := height_disjunction_le (settleAll leaf negated fs)
    rw [settle, levels]
    split <;> omega
  | not f => height_settle_le leaf (!negated) f
  | test t => Nat.le_refl 1

theorem heightAll_settleAll_le (leaf : Bool → τ → υ) (negated : Bool) :
    ∀ fs : List (Formula τ), heightAll (settleAll leaf negated fs) ≤ levelsAll fs
  | [] => Nat.le_refl 0
  | f :: fs => by
    have first := height_settle_le leaf negated f
    have others := heightAll_settleAll_le leaf negated fs
    simp only [settleAll, heightAll, levelsAll]
    omega

end

mutual

/-- A traversal puts a test in the place of each test. -/
theorem height_traverse {f : τ → Option υ} :
    ∀ (g : Formula τ) {h : Formula υ}, traverse f g = some h → height h = height g
  | all gs, h, done | any gs, h, done => by
    simp only [traverse, bind_pure_comp, Option.map_eq_map, Option.map_eq_some_iff] at done
    obtain ⟨hs, operands, rfl⟩ := done
    simp only [height, heightAll_traverseAll gs operands]
  | not g, h, done => by
    simp only [traverse, bind_pure_comp, Option.map_eq_map, Option.map_eq_some_iff] at done
    obtain ⟨k, operand, rfl⟩ := done
    simp only [height, height_traverse g operand]
  | test t, h, done => by
    simp only [traverse, bind_pure_comp, Option.map_eq_map, Option.map_eq_some_iff] at done
    obtain ⟨u, _, rfl⟩ := done
    rfl

theorem heightAll_traverseAll {f : τ → Option υ} :
    ∀ (gs : List (Formula τ)) {hs : List (Formula υ)}, traverseAll f gs = some hs →
      heightAll hs = heightAll gs
  | [], hs, done => by
    cases done
    rfl
  | g :: gs, hs, done => by
    simp only [traverseAll, Option.bind_eq_bind, Option.bind_eq_some_iff, Option.pure_def,
      Option.some.injEq] at done
    obtain ⟨h, first, rest, others, rfl⟩ := done
    simp only [heightAll, height_traverse g first, heightAll_traverseAll gs others]

end

end RecordQuery.Formula
