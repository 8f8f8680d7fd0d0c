import Mathlib
import RecordQuery.Proofs.Compile.Binding

/-!
# The order in which calls are bound

A tree is bound call by call, from left to right. So whether a reading is complete or not, binding it is
to bind its calls one after another, and what comes after that has nothing to do with the registry:
`discard_bindReading`. The first call without an accessor ends it: `ends_outcome`.
-/

namespace RecordQuery

section Discard

variable {β γ : Type} {m : Type → Type} [Monad m] [LawfulMonad m]

theorem discard_eq_map (x : m β) : Functor.discard x = (fun _ => PUnit.unit) <$> x := by
  rw [Functor.discard, map_const]
  rfl

theorem discard_map (g : β → γ) (x : m β) : Functor.discard (g <$> x) = Functor.discard x := by
  rw [discard_eq_map, discard_eq_map, Functor.map_map]

end Discard

namespace Formula

variable {τ υ : Type} {m : Type → Type} [Monad m] [LawfulMonad m]

mutual

/-- A traversal is, but for its result, what it does to the tests one after another. -/
theorem discard_traverse (f : τ → m υ) :
    ∀ g : Formula τ, Functor.discard (traverse f g) = (tests g).forM fun t => Functor.discard (f t)
  | all gs => by
    rw [traverse, bind_pure_comp, discard_map, discard_traverseAll f gs, tests]
  | any gs => by
    rw [traverse, bind_pure_comp, discard_map, discard_traverseAll f gs, tests]
  | not g => by
    rw [traverse, bind_pure_comp, discard_map, discard_traverse f g, tests]
  | test t => by
    rw [traverse, bind_pure_comp, discard_map, tests, List.forM_eq_forM, List.forM_cons,
      List.forM_nil, discard_eq_map, bind_pure_unit]

theorem discard_traverseAll (f : τ → m υ) :
    ∀ gs : List (Formula τ), Functor.discard (traverseAll f gs) =
      (testsAll gs).forM fun t => Functor.discard (f t)
  | [] => by
    rw [traverseAll, testsAll, discard_eq_map, map_pure]
    rfl
  | g :: gs => by
    rw [testsAll, List.forM_eq_forM, List.forM_append, ← List.forM_eq_forM, ← discard_traverse f g,
      ← discard_traverseAll f gs]
    simp only [traverseAll, discard_eq_map, map_bind, bind_pure_comp, Functor.map_map, bind_map_left]

end

end Formula

section Traverse

variable {α β : Type} {m : Type → Type} [Monad m] [LawfulMonad m] (f : Call α → m (Call β))

theorem Test.discard_traverse (t : Test α) :
    Functor.discard (t.traverse f) = t.calls.forM fun c => Functor.discard (f c) := by
  cases t with
  | call c | compare c r target | member c choices negated =>
    simp only [traverse, calls, bind_pure_comp, discard_eq_map, Functor.map_map, List.forM_eq_forM,
      List.forM_cons, List.forM_nil]
  | compareCalls left r right | memberCall left right negated =>
    simp only [traverse, calls, bind_pure_comp, discard_eq_map, map_bind, Functor.map_map,
      List.forM_eq_forM, List.forM_cons, List.forM_nil, bind_map_left]

theorem Condition.discard_traverse (c : Condition α) :
    Functor.discard (Formula.traverse (Test.traverse f) c) =
      c.calls.forM fun d => Functor.discard (f d) := by
  rw [Formula.discard_traverse, calls]
  induction c.tests with
  | nil => rfl
  | cons t ts ih =>
    rw [List.flatMap_cons, List.forM_eq_forM, List.forM_eq_forM, List.forM_append, List.forM_cons,
      Test.discard_traverse, ← List.forM_eq_forM, ih, List.forM_eq_forM]

end Traverse

/-- A binding fails where it fails without its result. -/
theorem Binding.error_of_discard {β : Type} {x : Binding β} {e : QueryError}
    {events events' : List Event} (thrown : Functor.discard x events = .error e events') :
    x events = .error e events' := by
  rw [discard_eq_map] at thrown
  simp only [Functor.map, EStateM.map] at thrown
  cases run : x events with
  | ok b events =>
    rw [run] at thrown
    cases thrown
  | error e events =>
    rw [run] at thrown
    cases thrown
    rfl

/-- A binding that succeeds without its result succeeds with it. -/
theorem Binding.ok_of_discard {β : Type} {x : Binding β} {events events' : List Event}
    (done : Functor.discard x events = .ok () events') : ∃ b, x events = .ok b events' := by
  rw [discard_eq_map] at done
  simp only [Functor.map, EStateM.map] at done
  cases run : x events with
  | ok b events =>
    rw [run] at done
    cases done
    exact ⟨b, rfl⟩
  | error e events =>
    rw [run] at done
    cases done

/-- The calls that are complete when a reading ends, from left to right. -/
def Reading.calls : Reading → List (Call Nat)
  | complete w => Condition.calls w
  | stopped calls _ => calls

namespace Registry

variable {α : Type} (registry : Registry α)

/-- Binding a reading is to bind its calls, and then to fail if the reading did. -/
theorem discard_bindReading (reading : Reading) :
    Functor.discard (registry.bindReading reading) = (do
      reading.calls.forM fun c => Functor.discard (registry.bindCall c)
      match reading with
      | .complete _ => return ()
      | .stopped _ e => throw e) := by
  cases reading with
  | complete w =>
    rw [bindReading_complete, discard_map, Condition.discard_traverse, Reading.calls]
    exact bind_pure_unit.symm
  | stopped calls e =>
    rw [bindReading, discard_eq_map, map_bind]
    rfl

/-- The error of a call without an accessor. -/
def unboundError (c : Call Nat) : QueryError :=
  ⟨c.accessor, .unboundCall c.name c.argument.type (registry.suggest c.argument.type c.name)⟩

/-- The event of a call that is bound to a fallback. -/
def bindingEvent? (c : Call Nat) : Option Event :=
  match registry.resolve c.argument.type c.name with
  | some (.fallback _) => some (.fallbackBound c.argument.type c.name)
  | _ => none

variable {registry} {c : Call Nat} {before after calls : List (Call Nat)}

theorem discard_bindCall_of_binds (binds : registry.Binds c.argument.type c.name)
    (events : List Event) :
    Functor.discard (registry.bindCall c) events =
      .ok () (events ++ (registry.bindingEvent? c).toList) := by
  obtain ⟨r, found⟩ := Option.isSome_iff_exists.mp ((registry.isSome_resolve _ _).mpr binds)
  rw [bindCall, bindingEvent?, found]
  cases r with
  | registered accessor => exact congrArg (EStateM.Result.ok ()) (List.append_nil events).symm
  | fallback accessor => rfl

theorem discard_bindCall_of_not_binds (unbound : ¬ registry.Binds c.argument.type c.name)
    (events : List Event) :
    Functor.discard (registry.bindCall c) events = .error (registry.unboundError c) events := by
  have found : registry.resolve c.argument.type c.name = none := by
    rw [← registry.isSome_resolve] at unbound
    exact Option.not_isSome_iff_eq_none.mp unbound
  rw [bindCall, found]
  rfl

/-- Calls that all have accessors are bound, and those with a fallback are logged. -/
theorem forM_bindCall_of_binds (binds : ∀ c ∈ calls, registry.Binds c.argument.type c.name)
    (events : List Event) :
    calls.forM (fun c => Functor.discard (registry.bindCall c)) events =
      .ok () (events ++ calls.filterMap registry.bindingEvent?) := by
  induction calls generalizing events with
  | nil => exact congrArg (EStateM.Result.ok ()) (List.append_nil events).symm
  | cons c calls ih =>
    obtain ⟨first, others⟩ := List.forall_mem_cons.mp binds
    rw [List.forM_eq_forM, List.forM_cons, ← List.forM_eq_forM, List.filterMap_cons]
    simp only [Bind.bind, EStateM.bind, discard_bindCall_of_binds first, ih others]
    cases registry.bindingEvent? c <;> simp

/-- The first call without an accessor ends the binding. -/
theorem forM_bindCall_of_not_binds (bound : ∀ b ∈ before, registry.Binds b.argument.type b.name)
    (unbound : ¬ registry.Binds c.argument.type c.name) (events : List Event) :
    (before ++ c :: after).forM (fun c => Functor.discard (registry.bindCall c)) events =
      .error (registry.unboundError c) (events ++ before.filterMap registry.bindingEvent?) := by
  rw [List.forM_eq_forM, List.forM_append, List.forM_cons, ← List.forM_eq_forM]
  simp only [Bind.bind, EStateM.bind, forM_bindCall_of_binds bound, discard_bindCall_of_not_binds unbound]

/-- Of some calls all have accessors, or there is a first one without. -/
theorem exists_first_not_binds (registry : Registry α) (calls : List (Call Nat)) :
    (∀ c ∈ calls, registry.Binds c.argument.type c.name) ∨
      ∃ before c after, calls = before ++ c :: after ∧
        (∀ b ∈ before, registry.Binds b.argument.type b.name) ∧
          ¬ registry.Binds c.argument.type c.name := by
  induction calls with
  | nil => exact .inl (List.forall_mem_nil _)
  | cons c calls ih =>
    by_cases binds : registry.Binds c.argument.type c.name
    · rcases ih with all | ⟨before, d, after, rfl, bound, unbound⟩
      · exact .inl (List.forall_mem_cons.mpr ⟨binds, all⟩)
      · exact .inr ⟨c :: before, d, after, rfl, List.forall_mem_cons.mpr ⟨binds, bound⟩, unbound⟩
    · exact .inr ⟨[], c, calls, rfl, List.forall_mem_nil _, binds⟩

/-- The first call without an accessor is reported, whatever comes of the reading. -/
theorem outcome_of_not_binds {reading : Reading} (calls : reading.calls = before ++ c :: after)
    (bound : ∀ b ∈ before, registry.Binds b.argument.type b.name)
    (unbound : ¬ registry.Binds c.argument.type c.name) :
    registry.outcome reading = .error (registry.unboundError c) := by
  have binding := congrFun (registry.discard_bindReading reading) []
  rw [calls] at binding
  simp only [Bind.bind, EStateM.bind, forM_bindCall_of_not_binds bound unbound] at binding
  unfold outcome
  rw [Binding.error_of_discard binding]

/-- How the binding of a reading can end: at the first call without an accessor, or where the reading
    ends. -/
inductive Ends (registry : Registry α) : Reading → Except QueryError (Condition α) → Prop
  | complete {w : Written} {u : Condition α} (bound : registry.boundTree? w = some u) :
      Ends registry (.complete w) (.ok u.simplify)
  | stopped {calls : List (Call Nat)} {e : QueryError}
      (binds : ∀ c ∈ calls, registry.Binds c.argument.type c.name) :
      Ends registry (.stopped calls e) (.error e)
  | unbound {reading : Reading} {before after : List (Call Nat)} {c : Call Nat}
      (calls : reading.calls = before ++ c :: after)
      (bound : ∀ b ∈ before, registry.Binds b.argument.type b.name)
      (unbound : ¬ registry.Binds c.argument.type c.name) :
      Ends registry reading (.error (registry.unboundError c))

theorem ends_outcome (registry : Registry α) (reading : Reading) :
    registry.Ends reading (registry.outcome reading) := by
  rcases registry.exists_first_not_binds reading.calls with
    binds | ⟨before, c, after, calls, bound, unbound⟩
  · cases reading with
    | complete w =>
      obtain ⟨u, bound⟩ := Option.isSome_iff_exists.mp ((registry.isSome_boundTree? w).mpr binds)
      have compiled : registry.outcome (.complete w) = .ok u.simplify := by
        rw [outcome_eq_ok_iff, boundReading?, bound, Option.map_some]
      rw [compiled]
      exact .complete bound
    | stopped calls e =>
      have binding := congrFun (registry.discard_bindReading (.stopped calls e)) []
      simp only [Bind.bind, EStateM.bind, forM_bindCall_of_binds binds] at binding
      have failed : registry.outcome (.stopped calls e) = .error e := by
        unfold outcome
        rw [Binding.error_of_discard binding]
      rw [failed]
      exact .stopped binds
  · rw [outcome_of_not_binds calls bound unbound]
    exact .unbound calls bound unbound

theorem ends_of_compile {query : String} {result : Except QueryError (Condition α)}
    (compiled : registry.compile query = result) : registry.Ends (.ofQuery query) result := by
  rw [← compiled, compile_eq_outcome]
  exact registry.ends_outcome (.ofQuery query)

end Registry

end RecordQuery
