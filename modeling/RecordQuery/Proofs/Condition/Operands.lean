import RecordQuery.Proofs.Condition.Bare

/-!
# The operands of a condition

What a condition takes from the query word by word: the names of its calls and the constants. They stay
as they are, and in their order, when a condition is simplified and when accessors are put into it.
-/

namespace RecordQuery

namespace Formula

variable {τ υ ω : Type}

theorem tests_conjunction (fs : List (Formula τ)) : tests (conjunction fs) = testsAll fs := by
  match fs with
  | [] | _ :: _ :: _ => rfl
  | [f] => exact (List.append_nil _).symm

theorem tests_disjunction (fs : List (Formula τ)) : tests (disjunction fs) = testsAll fs := by
  match fs with
  | [] | _ :: _ :: _ => rfl
  | [f] => exact (List.append_nil _).symm

mutual

/-- What is read off the tests from left to right stays the same when a formula is settled, if each leaf
    shows what its test shows. -/
theorem flatMap_tests_settle {leaf : Bool → τ → υ} {g : υ → List ω} {h : τ → List ω}
    (leaves : ∀ b t, g (leaf b t) = h t) (negated : Bool) :
    ∀ f : Formula τ, (tests (settle leaf negated f)).flatMap g = (tests f).flatMap h
  | all fs | any fs => by
    have operands := flatMap_testsAll_settleAll leaves negated fs
    rw [settle, tests]
    split
    all_goals simpa only [tests_conjunction, tests_disjunction] using operands
  | not f => flatMap_tests_settle leaves (!negated) f
  | test t => by
    rw [settle, tests, tests, List.flatMap_singleton, List.flatMap_singleton, leaves]

theorem flatMap_testsAll_settleAll {leaf : Bool → τ → υ} {g : υ → List ω} {h : τ → List ω}
    (leaves : ∀ b t, g (leaf b t) = h t) (negated : Bool) :
    ∀ fs : List (Formula τ),
      (testsAll (settleAll leaf negated fs)).flatMap g = (testsAll fs).flatMap h
  | [] => rfl
  | f :: fs => by
    rw [settleAll, testsAll, testsAll, List.flatMap_append, List.flatMap_append,
      flatMap_tests_settle leaves negated f, flatMap_testsAll_settleAll leaves negated fs]

end

end Formula

/-- What a condition takes from the query word by word. -/
inductive Operand where
  /-- The name of a call. -/
  | name (s : String)
  /-- A constant: the argument of a call, or what its answer is compared with or looked up in. -/
  | literal (l : Literal)
deriving DecidableEq, Repr

variable {α : Type}

/-- The name of a call and its argument. -/
def Call.operands (c : Call α) : List Operand :=
  [.name c.name, .literal c.argument]

namespace Test

/-- The operands of a test: those of its left call, then those on the right. -/
def operands : Test α → List Operand
  | call c => c.operands
  | compare c _ target => c.operands ++ [.literal target]
  | compareCalls left _ right => left.operands ++ right.operands
  | member c choices _ => c.operands ++ choices.toList.map .literal
  | memberCall left right _ => left.operands ++ right.operands

theorem operands_bare (t : Test α) : t.bare.operands = t.operands := by
  cases t <;> rfl

theorem operands_negate (t : Test α) : t.negate.operands = t.operands := by
  cases t <;> rfl

/-- An equality has the one constant of the list for which it stands. -/
theorem operands_unlist (t : Test α) : t.unlist.operands = t.operands := by
  cases t with
  | member c choices negated =>
    -- lists of none, of one and of more constants, of either type
    rcases choices with (_ | ⟨n, _ | _⟩) | (_ | ⟨s, _ | _⟩) <;> rfl
  | _ => rfl

end Test

namespace Condition

/-- The operands of a condition, from left to right. -/
def operands (c : Condition α) : List Operand :=
  c.tests.flatMap Test.operands

theorem operands_bare (c : Condition α) : c.bare.operands = c.operands := by
  rw [operands, operands, bare, Formula.tests_map, List.flatMap_map]
  simp only [Test.operands_bare]

/-- Neither negations carried to the tests nor groups and lists of one element taken away make any
    difference to the operands. -/
theorem operands_simplify (c : Condition α) : c.simplify.operands = c.operands := by
  refine Formula.flatMap_tests_settle (fun negated t => ?_) false c
  cases negated with
  | true => exact (Test.operands_negate _).trans (Test.operands_unlist t)
  | false => exact Test.operands_unlist t

/-- Putting accessors into a condition leaves its operands alone. -/
theorem operands_of_traverse {β : Type} {f : Call α → Option (Call β)} {w : Condition α}
    {u : Condition β} (each : ∀ c d, f c = some d → d.bare = c.bare)
    (done : Formula.traverse (Test.traverse f) w = some u) : u.operands = w.operands := by
  rw [← operands_bare, bare_of_traverse each done, operands_bare]

end Condition

end RecordQuery
