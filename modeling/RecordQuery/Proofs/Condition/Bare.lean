import RecordQuery.Proofs.Condition.Relocation

/-!
# Conditions without their accessors

What a condition shows of itself is all but the accessors of its calls. Two conditions with the same
bare form have the same groups in the same order, and the same tests but for accessors.
-/

namespace RecordQuery

namespace Formula

variable {σ τ υ : Type} {f : τ → Option υ}

mutual

/-- A traversal that succeeds keeps what every test keeps. -/
theorem map_of_traverse {g : υ → σ} {h : τ → σ} (each : ∀ t u, f t = some u → g u = h t) :
    ∀ (k : Formula τ) (l : Formula υ), traverse f k = some l → map g l = map h k
  | all ks, l, done => by
    simp only [traverse, bind_pure_comp, Option.map_eq_map, Option.map_eq_some_iff] at done
    obtain ⟨ls, operands, rfl⟩ := done
    rw [map, map, mapAll_of_traverseAll each ks ls operands]
  | any ks, l, done => by
    simp only [traverse, bind_pure_comp, Option.map_eq_map, Option.map_eq_some_iff] at done
    obtain ⟨ls, operands, rfl⟩ := done
    rw [map, map, mapAll_of_traverseAll each ks ls operands]
  | not k, l, done => by
    simp only [traverse, bind_pure_comp, Option.map_eq_map, Option.map_eq_some_iff] at done
    obtain ⟨l, operand, rfl⟩ := done
    rw [map, map, map_of_traverse each k l operand]
  | test t, l, done => by
    simp only [traverse, bind_pure_comp, Option.map_eq_map, Option.map_eq_some_iff] at done
    obtain ⟨u, here, rfl⟩ := done
    rw [map, map, each t u here]

theorem mapAll_of_traverseAll {g : υ → σ} {h : τ → σ} (each : ∀ t u, f t = some u → g u = h t) :
    ∀ (ks : List (Formula τ)) (ls : List (Formula υ)), traverseAll f ks = some ls →
      mapAll g ls = mapAll h ks
  | [], ls, done => by
    cases done
    rfl
  | k :: ks, ls, done => by
    simp only [traverseAll, Option.bind_eq_bind, Option.bind_eq_some_iff, Option.pure_def,
      Option.some.injEq] at done
    obtain ⟨l, first, rest, others, rfl⟩ := done
    rw [mapAll, mapAll, map_of_traverse each k l first, mapAll_of_traverseAll each ks rest others]

end

mutual

theorem tests_map (g : σ → τ) : ∀ k : Formula σ, tests (map g k) = (tests k).map g
  | all ks => by rw [map, tests, tests, testsAll_mapAll g ks]
  | any ks => by rw [map, tests, tests, testsAll_mapAll g ks]
  | not k => by rw [map, tests, tests, tests_map g k]
  | test t => rfl

theorem testsAll_mapAll (g : σ → τ) : ∀ ks : List (Formula σ), testsAll (mapAll g ks) = (testsAll ks).map g
  | [] => rfl
  | k :: ks => by
    rw [mapAll, testsAll, testsAll, tests_map g k, testsAll_mapAll g ks, List.map_append]

end

/-- A traversal that succeeds leaves tests with what every test is given. -/
theorem forall_tests_of_traverse {P : υ → Prop} (each : ∀ t u, f t = some u → P u) {k : Formula τ}
    {l : Formula υ} (done : traverse f k = some l) : ∀ u ∈ tests l, P u := by
  -- with every test replaced by what is said of it, nothing but truths is left
  have truths := congrArg tests
    (map_of_traverse (h := fun _ => True) (fun t u here => eq_true (each t u here)) k l done)
  rw [tests_map, tests_map] at truths
  intro u member
  have truth := List.mem_map_of_mem (f := P) member
  rw [truths] at truth
  obtain ⟨_, _, holds⟩ := List.mem_map.mp truth
  exact of_eq_true holds.symm

end Formula

/-- The call without its accessor. -/
def Call.bare {α : Type} (c : Call α) : Call Unit :=
  { c with accessor := () }

namespace Test

variable {α β : Type}

/-- The test without its accessors. -/
def bare : Test α → Test Unit
  | call c => call c.bare
  | compare c r target => compare c.bare r target
  | compareCalls left r right => compareCalls left.bare r right.bare
  | member c choices negated => member c.bare choices negated
  | memberCall left right negated => memberCall left.bare right.bare negated

/-- What is done to the calls of a test leaves the rest of it alone. -/
theorem bare_of_traverse {f : Call α → Option (Call β)}
    (each : ∀ c d, f c = some d → d.bare = c.bare) (t : Test α) (u : Test β)
    (done : t.traverse f = some u) : u.bare = t.bare := by
  cases t with
  | call c | compare c r target | member c choices negated =>
    simp only [traverse, bind_pure_comp, Option.map_eq_map, Option.map_eq_some_iff] at done
    obtain ⟨d, bound, rfl⟩ := done
    simp only [bare, each c d bound]
  | compareCalls left r right | memberCall left right negated =>
    simp only [traverse, bind_pure_comp, Option.map_eq_map, Option.bind_eq_bind,
      Option.bind_eq_some_iff, Option.map_eq_some_iff] at done
    obtain ⟨d, first, e, second, rfl⟩ := done
    simp only [bare, each left d first, each right e second]

theorem forall_calls_of_traverse {f : Call α → Option (Call β)} {P : Call β → Prop}
    (each : ∀ c d, f c = some d → P d) (t : Test α) (u : Test β) (done : t.traverse f = some u) :
    ∀ d ∈ u.calls, P d := by
  cases t with
  | call c | compare c r target | member c choices negated =>
    simp only [traverse, bind_pure_comp, Option.map_eq_map, Option.map_eq_some_iff] at done
    obtain ⟨d, bound, rfl⟩ := done
    exact List.forall_mem_singleton.mpr (each c d bound)
  | compareCalls left r right | memberCall left right negated =>
    simp only [traverse, bind_pure_comp, Option.map_eq_map, Option.bind_eq_bind,
      Option.bind_eq_some_iff, Option.map_eq_some_iff] at done
    obtain ⟨d, first, e, second, rfl⟩ := done
    exact List.forall_mem_cons.mpr
      ⟨each left d first, List.forall_mem_singleton.mpr (each right e second)⟩

end Test

namespace Condition

variable {α β : Type} {f : Call α → Option (Call β)} {w : Condition α} {u : Condition β}

/-- The condition without its accessors. -/
def bare (c : Condition α) : Condition Unit :=
  Formula.map Test.bare c

theorem bare_of_traverse (each : ∀ c d, f c = some d → d.bare = c.bare)
    (done : Formula.traverse (Test.traverse f) w = some u) : u.bare = w.bare :=
  Formula.map_of_traverse (Test.bare_of_traverse each) w u done

theorem forall_calls_of_traverse {P : Call β → Prop} (each : ∀ c d, f c = some d → P d)
    (done : Formula.traverse (Test.traverse f) w = some u) : ∀ d ∈ u.calls, P d := by
  intro d member
  obtain ⟨t, test, call⟩ := List.mem_flatMap.mp member
  have calls := Formula.forall_tests_of_traverse (Test.forall_calls_of_traverse each) done
  exact calls t test d call

end Condition

end RecordQuery
