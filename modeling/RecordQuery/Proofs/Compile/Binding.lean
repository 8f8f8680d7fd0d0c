import RecordQuery.Compile
import RecordQuery.Proofs.Compile.Traversal

/-!
# Bound trees

The accessors of a query's calls can be put into its syntax tree as it stands, before the tree is
simplified. Compiling is to read the query, to bind the tree and to simplify the outcome:
`compile_eq_ok_iff`. What is logged on the way decides nothing.
-/

namespace RecordQuery

/-- What a binding comes to, after some events. -/
def Binding.outcome {β : Type} (x : Binding β) (events : List Event) : Option β :=
  match x events with
  | .ok b _ => some b
  | .error _ _ => none

/-- A binding comes to the same, whatever has been logged before. -/
def Binding.Gives {β : Type} (x : Binding β) (y : Option β) : Prop :=
  ∀ events, x.outcome events = y

namespace Binding.Gives

variable {β γ : Type}

theorem pure (b : β) : Gives (Pure.pure b) (some b) :=
  fun _ => rfl

theorem bind {x : Binding β} {y : Option β} {f : β → Binding γ} {g : β → Option γ}
    (first : x.Gives y) (next : ∀ b, (f b).Gives (g b)) : (x >>= f).Gives (y >>= g) := by
  intro events
  rw [← first events]
  simp only [outcome, Bind.bind, EStateM.bind]
  cases x events with
  | ok b events' => exact next b events'
  | error fault events' => rfl

/-- A binding that throws in the end comes to nothing. -/
theorem throw (x : Binding β) (error : QueryError) :
    Gives (x >>= fun _ => (MonadExcept.throw error : Binding γ)) none := by
  intro events
  simp only [outcome, Bind.bind, EStateM.bind]
  cases x events <;> rfl

end Binding.Gives

/-- What a binding comes to goes along with running bindings one after another. -/
theorem Binding.tracks_gives : Tracks Binding Option fun _ => Binding.Gives :=
  ⟨.pure, fun first next => first.bind next⟩

namespace Registry

variable {α : Type}

/-- Whether calls of a name with arguments of a type have an accessor: the name is registered for the
    type, or the type has a fallback. -/
def Binds (registry : Registry α) (type : LiteralType) (name : String) : Prop :=
  name ∈ (registry.methods type).names ∨ (registry.fallback type).isSome

/-- A call with its accessor, if it has one. -/
def boundCall? (registry : Registry α) (c : Call Nat) : Option (Call α) :=
  (registry.resolve c.argument.type c.name).map fun r => { c with accessor := r.accessor }

/-- A syntax tree with the accessors of its calls, if all of them have one. -/
def boundTree? (registry : Registry α) (w : Written) : Option (Condition α) :=
  w.traverse (Test.traverse registry.boundCall?)

/-- A call has its accessor from the registry: the one registered under its name for its argument type
    or, if the name is not registered, the fallback of the type. -/
def Supplies (registry : Registry α) (c : Call α) : Prop :=
  (registry.methods c.argument.type).find? c.name = some c.accessor ∨
    c.name ∉ (registry.methods c.argument.type).names ∧
      registry.fallback c.argument.type = some c.accessor

/-- Simplified and bound, the syntax tree is the condition. -/
def Yields (registry : Registry α) (w : Written) (f : Condition α) : Prop :=
  (Condition.simplify w).traverse (Test.traverse registry.boundCall?) = some f

theorem gives_bindCall (registry : Registry α) (c : Call Nat) :
    (registry.bindCall c).Gives (registry.boundCall? c) := by
  intro events
  unfold bindCall boundCall?
  cases found : registry.resolve c.argument.type c.name with
  | none =>
    simp only [found]
    rfl
  | some r => cases r <;> simp only [found] <;> rfl

theorem isSome_resolve (registry : Registry α) (type : LiteralType) (name : String) :
    (registry.resolve type name).isSome ↔ registry.Binds type name := by
  unfold resolve Binds
  rw [← AccessorTable.isSome_find?_iff]
  cases (registry.methods type).find? name with
  | some accessor => simp only [Option.isSome_some, true_or]
  | none => simp only [Option.isSome_map, Option.isSome_none, Bool.false_eq_true, false_or]

/-- What a name resolves to is what the tables and the fallbacks supply. -/
theorem supplies_iff {registry : Registry α} {c : Call α} :
    registry.Supplies c ↔
      (registry.resolve c.argument.type c.name).map Resolution.accessor = some c.accessor := by
  unfold Supplies resolve
  rw [← AccessorTable.isSome_find?_iff]
  cases (registry.methods c.argument.type).find? c.name with
  | some accessor =>
    simp only [Option.isSome_some, not_true, false_and, or_false, Option.map_some,
      Resolution.accessor]
  | none =>
    have accessors : Resolution.accessor ∘ Resolution.fallback = (id : α → α) := rfl
    simp only [reduceCtorEq, Option.isSome_none, Bool.false_eq_true, not_false_eq_true, true_and,
      false_or, Option.map_map, accessors, Option.map_id_fun, id]

theorem isSome_boundTree? (registry : Registry α) (w : Written) :
    (registry.boundTree? w).isSome ↔
      ∀ c ∈ Condition.calls w, registry.Binds c.argument.type c.name := by
  unfold boundTree? Condition.calls
  rw [Formula.isSome_traverse]
  simp only [Test.isSome_traverse, boundCall?, Option.isSome_map, isSome_resolve,
    List.mem_flatMap, forall_exists_index, and_imp]
  exact ⟨fun h c t ht hc => h t ht c hc, fun h t ht c hc => h c t ht hc⟩

/-- Calls are bound in the same way whether their truth is inverted or not. -/
theorem bindCall_negate (registry : Registry α) (c : Call Nat) :
    registry.bindCall c.negate = Call.negate <$> registry.bindCall c := by
  have argument : c.negate.argument = c.argument := rfl
  have name : c.negate.name = c.name := rfl
  unfold bindCall
  rw [argument, name]
  cases found : registry.resolve c.argument.type c.name with
  | none =>
    simp only [found]
    rfl
  | some r => cases r <;> simp only [found] <;> rfl

theorem boundCall?_negate (registry : Registry α) (c : Call Nat) :
    registry.boundCall? c.negate = Call.negate <$> registry.boundCall? c := by
  unfold boundCall?
  rw [Option.map_eq_map, Option.map_map]
  rfl

/-- Accessors may be put into a tree before it is simplified. -/
theorem yields_iff {registry : Registry α} {w : Written} {f : Condition α} :
    registry.Yields w f ↔ ∃ u, registry.boundTree? w = some u ∧ u.simplify = f := by
  rw [Yields, Condition.traverse_simplify registry.boundCall?_negate, Option.map_eq_map,
    Option.map_eq_some_iff]
  rfl

/-- A tree may be bound before it is simplified. -/
theorem bindReading_complete (registry : Registry α) (w : Written) :
    registry.bindReading (.complete w) =
      Condition.simplify <$> Formula.traverse (Test.traverse registry.bindCall) w :=
  Condition.traverse_simplify registry.bindCall_negate w

/-- What a reading is compiled to. -/
def outcome (registry : Registry α) (reading : Reading) : Except QueryError (Condition α) :=
  match registry.bindReading reading [] with
  | .ok c _ => .ok c
  | .error e _ => .error e

theorem compile_eq_outcome (registry : Registry α) (query : String) :
    registry.compile query = registry.outcome (.ofQuery query) := by
  unfold compile compileLogged outcome
  cases registry.bindReading (.ofQuery query) [] <;> rfl

/-- The bound syntax tree of a reading in simplified form, if it is complete and all calls have
    accessors. -/
def boundReading? (registry : Registry α) : Reading → Option (Condition α)
  | .complete w => (registry.boundTree? w).map Condition.simplify
  | .stopped _ _ => none

theorem gives_bindReading (registry : Registry α) :
    ∀ reading, (registry.bindReading reading).Gives (registry.boundReading? reading)
  | .complete w => by
    have tree := Binding.tracks_gives.traverse (Binding.tracks_gives.test registry.gives_bindCall) w
    rw [bindReading_complete, map_eq_pure_bind, boundReading?, Option.map_eq_bind]
    exact tree.bind fun u => .pure (Condition.simplify u)
  | .stopped calls error => .throw _ error

theorem outcome_eq_ok_iff {registry : Registry α} {reading : Reading} {c : Condition α} :
    registry.outcome reading = .ok c ↔ registry.boundReading? reading = some c := by
  rw [← registry.gives_bindReading reading []]
  unfold outcome Binding.outcome
  cases registry.bindReading reading [] with
  | ok d events => rw [Option.some.injEq, Except.ok.injEq]
  | error fault events => exact iff_of_false nofun nofun

/-- Compiling is to read, to bind and to simplify. -/
theorem compile_eq_ok_iff (registry : Registry α) (query : String) (c : Condition α) :
    registry.compile query = .ok c ↔ registry.boundReading? (.ofQuery query) = some c := by
  rw [compile_eq_outcome, outcome_eq_ok_iff]

/-- Two registries have the same accessors under the same names, and the same fallbacks. The order in
    which the names were registered does not matter. -/
def SameMethods (r s : Registry α) : Prop :=
  ∀ type, (∀ name, (r.methods type).find? name = (s.methods type).find? name) ∧
    r.fallback type = s.fallback type

/-- Registries with the same methods compile the same queries to the same conditions. -/
theorem SameMethods.compile_eq_ok_iff {r s : Registry α} (same : r.SameMethods s) (query : String)
    (c : Condition α) : r.compile query = .ok c ↔ s.compile query = .ok c := by
  have resolves : ∀ type name, r.resolve type name = s.resolve type name := by
    intro type name
    rw [resolve, resolve, (same type).1 name, (same type).2]
  have calls : r.boundCall? = s.boundCall? := by
    funext c
    rw [boundCall?, boundCall?, resolves]
  have readings : ∀ reading, r.boundReading? reading = s.boundReading? reading := by
    intro reading
    cases reading with
    | complete w => rw [boundReading?, boundReading?, boundTree?, boundTree?, calls]
    | stopped calls error => rfl
  rw [Registry.compile_eq_ok_iff, Registry.compile_eq_ok_iff, readings]

end Registry

end RecordQuery
