/-!
# Formulas

Boolean formulas over tests of any kind: conjunctions and disjunctions of any number of operands,
negations, and single tests. Operands are kept in the order in which they are written, which is the
order in which they are tried.
-/

namespace RecordQuery

/-- A formula over tests of type `τ`. -/
inductive Formula (τ : Type) where
  /-- Every operand must hold. -/
  | all (operands : List (Formula τ))
  /-- Some operand must hold. -/
  | any (operands : List (Formula τ))
  /-- The operand must not hold. -/
  | not (operand : Formula τ)
  /-- One test. -/
  | test (t : τ)

namespace Formula

variable {τ υ : Type}

/-- The conjunction of some formulas; a single one stands for itself. -/
def conjunction : List (Formula τ) → Formula τ
  | [f] => f
  | fs => all fs

/-- The disjunction of some formulas; a single one stands for itself. -/
def disjunction : List (Formula τ) → Formula τ
  | [f] => f
  | fs => any fs

/-- The formula under `n` negations. -/
def notTimes : Nat → Formula τ → Formula τ
  | 0, f => f
  | n + 1, f => notTimes n (not f)

mutual

/-- The tests, from left to right. -/
def tests : Formula τ → List τ
  | all fs => testsAll fs
  | any fs => testsAll fs
  | not f => tests f
  | test t => [t]

/-- The tests of some formulas, from left to right. -/
def testsAll : List (Formula τ) → List τ
  | [] => []
  | f :: fs => tests f ++ testsAll fs

end

mutual

/-- The complement, given the complement of a test: the two groups change places and a negation is
    taken away. -/
def negate (flip : τ → τ) : Formula τ → Formula τ
  | all fs => any (negateAll flip fs)
  | any fs => all (negateAll flip fs)
  | not f => f
  | test t => test (flip t)

/-- The complements of some formulas. -/
def negateAll (flip : τ → τ) : List (Formula τ) → List (Formula τ)
  | [] => []
  | f :: fs => negate flip f :: negateAll flip fs

end

mutual

/-- The formula with every negation carried down to the tests and every group of one operand
    replaced by that operand. `leaf false t` is what becomes of a test and `leaf true t` of a negated
    one; `negated` says whether the formula itself stands under a negation. -/
def settle (leaf : Bool → τ → υ) (negated : Bool) : Formula τ → Formula υ
  | all fs =>
    if negated then disjunction (settleAll leaf negated fs)
    else conjunction (settleAll leaf negated fs)
  | any fs =>
    if negated then conjunction (settleAll leaf negated fs)
    else disjunction (settleAll leaf negated fs)
  | not f => settle leaf (!negated) f
  | test t => test (leaf negated t)

/-- The settled forms of some formulas. -/
def settleAll (leaf : Bool → τ → υ) (negated : Bool) : List (Formula τ) → List (Formula υ)
  | [] => []
  | f :: fs => settle leaf negated f :: settleAll leaf negated fs

end

mutual

/-- The formula with `f` done to each test, from left to right. -/
def traverse {m : Type → Type} [Monad m] (f : τ → m υ) : Formula τ → m (Formula υ)
  | all fs => return all (← traverseAll f fs)
  | any fs => return any (← traverseAll f fs)
  | not g => return not (← traverse f g)
  | test t => return test (← f t)

/-- The formulas with `f` done to each test, from left to right. -/
def traverseAll {m : Type → Type} [Monad m] (f : τ → m υ) :
    List (Formula τ) → m (List (Formula υ))
  | [] => return []
  | g :: gs => return (← traverse f g) :: (← traverseAll f gs)

end

mutual

/-- Whether the formula holds, given how to try a test. Operands are tried from left to right until
    one decides the group. -/
def holds {m : Type → Type} [Monad m] (check : τ → m Bool) : Formula τ → m Bool
  | all fs => allHold check fs
  | any fs => anyHolds check fs
  | not f => return !(← holds check f)
  | test t => check t

/-- Whether all of some formulas hold; none is tried after one that fails. -/
def allHold {m : Type → Type} [Monad m] (check : τ → m Bool) : List (Formula τ) → m Bool
  | [] => return true
  | f :: fs => do
    if ← holds check f then allHold check fs else return false

/-- Whether one of some formulas holds; none is tried after it. -/
def anyHolds {m : Type → Type} [Monad m] (check : τ → m Bool) : List (Formula τ) → m Bool
  | [] => return false
  | f :: fs => do
    if ← holds check f then return true else anyHolds check fs

end

theorem notTimes_not (n : Nat) (f : Formula τ) : notTimes n (not f) = not (notTimes n f) := by
  induction n generalizing f with
  | zero => rfl
  | succ n ih => exact ih (not f)

theorem settleAll_eq_map (leaf : Bool → τ → υ) (negated : Bool) (fs : List (Formula τ)) :
    settleAll leaf negated fs = fs.map (settle leaf negated) := by
  induction fs with
  | nil => rfl
  | cons f fs ih => simp [settleAll, ih]

theorem testsAll_eq_flatMap (fs : List (Formula τ)) : testsAll fs = fs.flatMap tests := by
  induction fs with
  | nil => rfl
  | cons f fs ih => simp [testsAll, ih]

end Formula

end RecordQuery
