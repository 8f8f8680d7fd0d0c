import RecordQuery.Reader

/-!
# Syntax trees at other places

Of the places of its words a syntax tree keeps the offset of the name in each call, in the place of the
accessor. Moving the words of a query changes nothing else in its tree.
-/

namespace RecordQuery

namespace Formula

variable {σ τ υ : Type}

mutual

/-- The formula with `f` done to each test. -/
def map (f : τ → υ) : Formula τ → Formula υ
  | all fs => all (mapAll f fs)
  | any fs => any (mapAll f fs)
  | not g => not (map f g)
  | test t => test (f t)

/-- The formulas with `f` done to each test. -/
def mapAll (f : τ → υ) : List (Formula τ) → List (Formula υ)
  | [] => []
  | g :: gs => map f g :: mapAll f gs

end

theorem mapAll_eq_map (f : τ → υ) (gs : List (Formula τ)) : mapAll f gs = gs.map (map f) := by
  induction gs with
  | nil => rfl
  | cons g gs ih => rw [mapAll, ih, List.map_cons]

mutual

/-- A traversal of a mapped formula is one of the formula itself. -/
theorem traverse_map {m : Type → Type} [Monad m] (f : σ → τ) (g : τ → m υ) :
    ∀ h : Formula σ, traverse g (map f h) = traverse (fun t => g (f t)) h
  | all hs => by rw [map, traverse, traverse, traverseAll_mapAll f g hs]
  | any hs => by rw [map, traverse, traverse, traverseAll_mapAll f g hs]
  | not h => by rw [map, traverse, traverse, traverse_map f g h]
  | test t => rfl

theorem traverseAll_mapAll {m : Type → Type} [Monad m] (f : σ → τ) (g : τ → m υ) :
    ∀ hs : List (Formula σ), traverseAll g (mapAll f hs) = traverseAll (fun t => g (f t)) hs
  | [] => rfl
  | h :: hs => by rw [mapAll, traverseAll, traverseAll, traverse_map f g h, traverseAll_mapAll f g hs]

end

end Formula

/-- The call with its name at another offset. -/
def Call.relocate (move : Nat → Nat) (c : Call Nat) : Call Nat :=
  { c with accessor := move c.accessor }

namespace Test

/-- The test with the names of its calls at other offsets. -/
def relocate (move : Nat → Nat) : Test Nat → Test Nat
  | call c => call (c.relocate move)
  | compare c r target => compare (c.relocate move) r target
  | compareCalls left r right => compareCalls (left.relocate move) r (right.relocate move)
  | member c choices negated => member (c.relocate move) choices negated
  | memberCall left right negated => memberCall (left.relocate move) (right.relocate move) negated

theorem traverse_relocate {β : Type} {m : Type → Type} [Monad m] (move : Nat → Nat)
    (f : Call Nat → m (Call β)) (t : Test Nat) :
    (t.relocate move).traverse f = t.traverse fun c => f (c.relocate move) := by
  cases t <;> rfl

end Test

/-- The condition with the names of its calls at other offsets. -/
def Condition.relocate (move : Nat → Nat) (w : Written) : Written :=
  Formula.map (Test.relocate move) w

/-- A traversal of a relocated condition is one of the condition itself. -/
theorem Condition.traverse_relocate {β : Type} {m : Type → Type} [Monad m] (move : Nat → Nat)
    (f : Call Nat → m (Call β)) (w : Written) :
    Formula.traverse (Test.traverse f) (w.relocate move) =
      Formula.traverse (Test.traverse fun c => f (c.relocate move)) w := by
  rw [relocate, Formula.traverse_map]
  simp only [Test.traverse_relocate]

/-- Two syntax trees are the same but for the offsets of names. -/
def Condition.SameButOffsets (v w : Written) : Prop :=
  v.relocate (fun _ => 0) = w.relocate (fun _ => 0)

namespace Condition.SameButOffsets

variable {v w x y : Written} {ws : List Written}

/-- A conjunction goes on with one more operand. -/
theorem all_snoc (same : SameButOffsets v (.all ws)) (last : SameButOffsets x y) :
    ∃ vs, v = .all vs ∧ SameButOffsets (.all (vs ++ [x])) (.all (ws ++ [y])) := by
  cases v with
  | all vs =>
    simp only [SameButOffsets, relocate, Formula.map, Formula.mapAll_eq_map, Formula.all.injEq]
      at same last
    refine ⟨vs, rfl, ?_⟩
    simp only [SameButOffsets, relocate, Formula.map, Formula.mapAll_eq_map, List.map_append,
      List.map_cons, List.map_nil, same, last]
  | any | not | test => cases same

/-- A disjunction goes on with one more operand. -/
theorem any_snoc (same : SameButOffsets v (.any ws)) (last : SameButOffsets x y) :
    ∃ vs, v = .any vs ∧ SameButOffsets (.any (vs ++ [x])) (.any (ws ++ [y])) := by
  cases v with
  | any vs =>
    simp only [SameButOffsets, relocate, Formula.map, Formula.mapAll_eq_map, Formula.any.injEq]
      at same last
    refine ⟨vs, rfl, ?_⟩
    simp only [SameButOffsets, relocate, Formula.map, Formula.mapAll_eq_map, List.map_append,
      List.map_cons, List.map_nil, same, last]
  | all | not | test => cases same

end Condition.SameButOffsets

end RecordQuery
