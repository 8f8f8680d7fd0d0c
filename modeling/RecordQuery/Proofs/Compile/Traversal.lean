import RecordQuery.Condition

/-!
# Doing something to every test

A formula is traversed from left to right, and settling it keeps its tests in their places. So a
traversal may be done before or after settling, in any lawful monad: `traverse_settle`.
-/

namespace RecordQuery

namespace Formula

variable {τ υ σ ω : Type} {m : Type → Type} [Monad m] [LawfulMonad m]

theorem traverse_conjunction (f : τ → m υ) (gs : List (Formula τ)) :
    traverse f (conjunction gs) = conjunction <$> traverseAll f gs := by
  match gs with
  | [] => simp only [conjunction, traverse, traverseAll, bind_pure_comp, map_pure]
  | [g] =>
    simp only [conjunction, traverseAll, bind_pure_comp, map_pure, Functor.map_map]
    exact (id_map' _).symm
  | g :: h :: gs =>
    simp only [conjunction, traverse, traverseAll, bind_pure_comp, map_bind, Functor.map_map]

theorem traverse_disjunction (f : τ → m υ) (gs : List (Formula τ)) :
    traverse f (disjunction gs) = disjunction <$> traverseAll f gs := by
  match gs with
  | [] => simp only [disjunction, traverse, traverseAll, bind_pure_comp, map_pure]
  | [g] =>
    simp only [disjunction, traverseAll, bind_pure_comp, map_pure, Functor.map_map]
    exact (id_map' _).symm
  | g :: h :: gs =>
    simp only [disjunction, traverse, traverseAll, bind_pure_comp, map_bind, Functor.map_map]

/-- Some formulas are traversed as those at their beginning and then those at their end. -/
theorem traverseAll_append (f : τ → m υ) (gs hs : List (Formula τ)) :
    traverseAll f (gs ++ hs) = do
      let first ← traverseAll f gs
      let second ← traverseAll f hs
      return first ++ second := by
  induction gs with
  | nil => simp only [List.nil_append, traverseAll, pure_bind, bind_pure]
  | cons g gs ih => simp only [List.cons_append, traverseAll, ih, bind_assoc, pure_bind]

mutual

/-- A traversal after settling is one before it, if it is so for the leaves. -/
theorem traverse_settle {f : τ → m υ} {g : σ → m ω} {leaf : Bool → τ → σ} {leaf' : Bool → υ → ω}
    (leaves : ∀ b t, g (leaf b t) = leaf' b <$> f t) (negated : Bool) :
    ∀ h : Formula τ, traverse g (settle leaf negated h) = settle leaf' negated <$> traverse f h
  | all gs => by
    have group := traverseAll_settleAll leaves negated gs
    cases negated <;>
      simp only [settle, Bool.false_eq_true, if_true, if_false, traverse_conjunction,
        traverse_disjunction, group, traverse, bind_pure_comp, Functor.map_map]
  | any gs => by
    have group := traverseAll_settleAll leaves negated gs
    cases negated <;>
      simp only [settle, Bool.false_eq_true, if_true, if_false, traverse_conjunction,
        traverse_disjunction, group, traverse, bind_pure_comp, Functor.map_map]
  | not h => by
    simp only [settle, traverse, traverse_settle leaves (!negated) h, bind_pure_comp,
      Functor.map_map]
  | test t => by
    simp only [settle, traverse, leaves, bind_pure_comp, Functor.map_map]

theorem traverseAll_settleAll {f : τ → m υ} {g : σ → m ω} {leaf : Bool → τ → σ}
    {leaf' : Bool → υ → ω} (leaves : ∀ b t, g (leaf b t) = leaf' b <$> f t) (negated : Bool) :
    ∀ hs : List (Formula τ),
      traverseAll g (settleAll leaf negated hs) = settleAll leaf' negated <$> traverseAll f hs
  | [] => by simp only [settleAll, traverseAll, map_pure]
  | h :: hs => by
    simp only [settleAll, traverseAll, traverse_settle leaves negated h,
      traverseAll_settleAll leaves negated hs, bind_map_left, map_bind, bind_pure_comp,
      Functor.map_map]

end

mutual

/-- A traversal that may fail succeeds if it does so at every test. -/
theorem isSome_traverse {f : τ → Option υ} :
    ∀ g : Formula τ, (traverse f g).isSome ↔ ∀ t ∈ tests g, (f t).isSome
  | all gs => by
    simpa only [traverse, tests, bind_pure_comp, Option.map_eq_map, Option.isSome_map] using
      isSome_traverseAll gs
  | any gs => by
    simpa only [traverse, tests, bind_pure_comp, Option.map_eq_map, Option.isSome_map] using
      isSome_traverseAll gs
  | not g => by
    simpa only [traverse, tests, bind_pure_comp, Option.map_eq_map, Option.isSome_map] using
      isSome_traverse g
  | test t => by
    simp only [traverse, tests, bind_pure_comp, Option.map_eq_map, Option.isSome_map,
      List.mem_singleton, forall_eq]

theorem isSome_traverseAll {f : τ → Option υ} :
    ∀ gs : List (Formula τ), (traverseAll f gs).isSome ↔ ∀ t ∈ testsAll gs, (f t).isSome
  | [] => by simp only [traverseAll, testsAll, Option.pure_def, Option.isSome_some, List.not_mem_nil,
      false_implies, implies_true]
  | g :: gs => by
    simp only [testsAll, List.mem_append, or_imp, forall_and, ← isSome_traverse g,
      ← isSome_traverseAll gs]
    cases first : traverse f g <;> cases rest : traverseAll f gs <;>
      simp [traverseAll, first, rest]

end

end Formula

namespace Test

variable {α β : Type} {m : Type → Type} [Monad m] [LawfulMonad m]

/-- A traversal after negating a test is one before it, if negating a call does not matter to what is
    done to calls. -/
theorem traverse_negate {f : Call α → m (Call β)} (calls : ∀ c, f c.negate = Call.negate <$> f c)
    (t : Test α) : t.negate.traverse f = negate <$> t.traverse f := by
  cases t with
  | call c =>
    simp only [negate, traverse, calls, bind_pure_comp, Functor.map_map]
  | compareCalls left r right | memberCall left right negated =>
    simp only [negate, traverse, bind_pure_comp, map_bind, Functor.map_map]
  | compare c r target | member c choices negated =>
    simp only [negate, traverse, bind_pure_comp, Functor.map_map]

theorem traverse_unlist (f : Call α → m (Call β)) (t : Test α) :
    t.unlist.traverse f = unlist <$> t.traverse f := by
  cases t with
  | call c | compare c r target =>
    simp only [unlist, traverse, bind_pure_comp, Functor.map_map]
  | compareCalls left r right | memberCall left right negated =>
    simp only [unlist, traverse, bind_pure_comp, map_bind, Functor.map_map]
  | member c choices negated =>
    -- lists of none, of one and of more constants, of either type
    rcases choices with (_ | ⟨m, _ | _⟩) | (_ | ⟨s, _ | _⟩) <;>
      simp only [unlist, traverse, bind_pure_comp, Functor.map_map]

/-- A test's calls are all that a traversal depends on. -/
theorem isSome_traverse {f : Call α → Option (Call β)} (t : Test α) :
    (t.traverse f).isSome ↔ ∀ c ∈ t.calls, (f c).isSome := by
  cases t with
  | compareCalls left r right | memberCall left right negated =>
    cases first : f left <;> cases second : f right <;> simp [traverse, calls, first, second]
  | call c | compare c r target | member c choices negated =>
    cases first : f c <;> simp [traverse, calls, first]

end Test

/-- A relation between the computations of two monads that goes along with running one computation
    after another. -/
structure Tracks (m n : Type → Type) [Monad m] [Monad n] (R : ∀ β : Type, m β → n β → Prop) :
    Prop where
  pure {β : Type} (b : β) : R β (pure b) (pure b)
  bind {β γ : Type} {x : m β} {y : n β} {f : β → m γ} {g : β → n γ} (first : R β x y)
    (next : ∀ b, R γ (f b) (g b)) : R γ (x >>= f) (y >>= g)

namespace Tracks

variable {τ υ : Type} {m n : Type → Type} [Monad m] [Monad n]
  {R : ∀ β : Type, m β → n β → Prop} {f : τ → m υ} {g : τ → n υ}

mutual

/-- Traversals are related if what they do at each test is. -/
theorem traverse (h : Tracks m n R) (tests : ∀ t, R υ (f t) (g t)) :
    ∀ k : Formula τ, R _ (k.traverse f) (k.traverse g)
  | .all ks => h.bind (traverseAll h tests ks) fun _ => h.pure _
  | .any ks => h.bind (traverseAll h tests ks) fun _ => h.pure _
  | .not k => h.bind (traverse h tests k) fun _ => h.pure _
  | .test t => h.bind (tests t) fun _ => h.pure _

theorem traverseAll (h : Tracks m n R) (tests : ∀ t, R υ (f t) (g t)) :
    ∀ ks : List (Formula τ), R _ (Formula.traverseAll f ks) (Formula.traverseAll g ks)
  | [] => h.pure []
  | k :: ks => h.bind (traverse h tests k) fun _ => h.bind (traverseAll h tests ks) fun _ => h.pure _

end

/-- Traversals of a test are related if what they do at each call is. -/
theorem test {α β : Type} {f : Call α → m (Call β)} {g : Call α → n (Call β)} (h : Tracks m n R)
    (calls : ∀ c, R _ (f c) (g c)) (t : Test α) : R _ (t.traverse f) (t.traverse g) := by
  cases t with
  | compareCalls left r right | memberCall left right negated =>
    exact h.bind (calls left) fun _ => h.bind (calls right) fun _ => h.pure _
  | call c | compare c r target | member c choices negated =>
    exact h.bind (calls c) fun _ => h.pure _

end Tracks

/-- A traversal after simplifying is one before it, if negating a call does not matter to what is
    done to calls. -/
theorem Condition.traverse_simplify {α β : Type} {m : Type → Type} [Monad m] [LawfulMonad m]
    {f : Call α → m (Call β)} (calls : ∀ c, f c.negate = Call.negate <$> f c) (w : Condition α) :
    Formula.traverse (Test.traverse f) w.simplify =
      Condition.simplify <$> Formula.traverse (Test.traverse f) w := by
  refine Formula.traverse_settle (fun negated t => ?_) false w
  cases negated with
  | true => simp only [if_true, Test.traverse_negate calls, Test.traverse_unlist, Functor.map_map]
  | false => simp only [Bool.false_eq_true, if_false, Test.traverse_unlist]

end RecordQuery
