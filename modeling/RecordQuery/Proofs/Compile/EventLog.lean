import RecordQuery.Proofs.Compile.CompleteCalls

/-!
# What compiling logs

A compilation logs each call that is bound to a fallback, up to where it ends, and its error if it has
one. Which calls these are can be told from the tokens of the query and the offset of the error:
`Registry.compileLogged_eq`.
-/

namespace RecordQuery

variable {β : Type}

/-- The calls of a query that are complete where its parsing ends: those that begin before the error, or
    all of them if there is none. -/
def completedCalls (query : String) : Except QueryError β → List (Call Nat)
  | .ok _ => writtenCalls (tokenize query)
  | .error e => (writtenCalls (tokenize query)).filter fun c => c.accessor < e.offset

theorem completedCalls_of_error {query : String} {e : QueryError} {before rest : List (Call Nat)}
    (calls : writtenCalls (tokenize query) = before ++ rest)
    (earlier : ∀ c ∈ before, c.accessor < e.offset) (later : ∀ c ∈ rest, e.offset ≤ c.accessor) :
    completedCalls query (.error e : Except QueryError β) = before := by
  have kept : before.filter (fun c => c.accessor < e.offset) = before :=
    List.filter_eq_self.mpr fun c member => decide_eq_true (earlier c member)
  have dropped : rest.filter (fun c => c.accessor < e.offset) = [] :=
    List.filter_eq_nil_iff.mpr fun c member here =>
      absurd (of_decide_eq_true here) (Nat.not_lt.mpr (later c member))
  rw [completedCalls, calls, List.filter_append, kept, dropped, List.append_nil]

namespace Registry

variable {α : Type}

/-- A call is left to the fallback for its argument type: there is one, and the call's name is not
    registered. -/
def FallsBack (registry : Registry α) (c : Call Nat) : Prop :=
  c.name ∉ (registry.methods c.argument.type).names ∧ (registry.fallback c.argument.type).isSome

instance (registry : Registry α) : DecidablePred registry.FallsBack :=
  fun _ => inferInstanceAs (Decidable (_ ∧ _))

/-- The events of those calls that are bound to fallbacks. -/
def fallbackEvents (registry : Registry α) (calls : List (Call Nat)) : List Event :=
  (calls.filter fun c => registry.FallsBack c).map fun c => .fallbackBound c.argument.type c.name

/-- What is logged when a query has been compiled: its error, if it has one. -/
def failureEvents (query : String) : Except QueryError β → List Event
  | .ok _ => []
  | .error e => [.compileFailed query e]

variable {registry : Registry α} {query : String}

theorem fallsBack_iff {c : Call Nat} :
    registry.FallsBack c ↔
      ∃ accessor, registry.resolve c.argument.type c.name = some (.fallback accessor) := by
  rw [FallsBack, ← AccessorTable.isSome_find?_iff, resolve]
  cases (registry.methods c.argument.type).find? c.name with
  | some accessor => simp
  | none => simp [Option.isSome_iff_exists]

theorem bindingEvent?_eq (c : Call Nat) :
    registry.bindingEvent? c =
      if registry.FallsBack c then some (.fallbackBound c.argument.type c.name) else none := by
  by_cases falls : registry.FallsBack c
  · obtain ⟨accessor, found⟩ := fallsBack_iff.mp falls
    rw [if_pos falls, bindingEvent?, found]
  · rw [if_neg falls, bindingEvent?]
    split
    · next accessor found => exact absurd (fallsBack_iff.mpr ⟨accessor, found⟩) falls
    · rfl

theorem filterMap_bindingEvent? (calls : List (Call Nat)) :
    calls.filterMap registry.bindingEvent? = registry.fallbackEvents calls := by
  rw [fallbackEvents]
  induction calls with
  | nil => rfl
  | cons c calls ih =>
    rw [List.filterMap_cons, bindingEvent?_eq, List.filter_cons, ih]
    by_cases falls : registry.FallsBack c
    · rw [if_pos falls, if_pos (decide_eq_true falls), List.map_cons]
    · rw [if_neg falls, if_neg (by simpa using falls)]

/-- Binding the reading of a query logs the fallbacks of the calls that are complete where it ends. -/
theorem log_bindReading (registry : Registry α) (query : String) :
    ∃ answer : Except QueryError (Condition α),
      registry.bindReading (.ofQuery query) [] =
        let events := registry.fallbackEvents (completedCalls query answer)
        match answer with
        | .ok c => .ok c events
        | .error e => .error e events := by
  have binding := congrFun (registry.discard_bindReading (.ofQuery query)) []
  rcases registry.exists_first_not_binds (Reading.ofQuery query).calls with
    binds | ⟨before, c, after, calls, bound, unbound⟩
  · simp only [Bind.bind, EStateM.bind, forM_bindCall_of_binds binds, List.nil_append,
      filterMap_bindingEvent?] at binding
    cases read : Reading.ofQuery query with
    | complete w =>
      rw [read] at binding
      obtain ⟨c, bound⟩ := Binding.ok_of_discard binding
      refine ⟨.ok c, ?_⟩
      rw [bound, completedCalls, Reading.writtenCalls_of_complete read, Reading.calls]
    | stopped calls e =>
      rw [read] at binding
      obtain ⟨later, written, earlier, others⟩ := Reading.exists_later_calls read
      refine ⟨.error e, ?_⟩
      rw [Binding.error_of_discard binding, completedCalls_of_error written earlier others, Reading.calls]
  · rw [calls] at binding
    simp only [Bind.bind, EStateM.bind, forM_bindCall_of_not_binds bound unbound, List.nil_append,
      filterMap_bindingEvent?] at binding
    refine ⟨.error (registry.unboundError c), ?_⟩
    obtain ⟨later, written⟩ := Reading.exists_calls_append query
    rw [calls, List.append_assoc] at written
    obtain ⟨_, increase, apart⟩ := List.pairwise_append.mp (written ▸ writtenCalls_increase query)
    rw [Binding.error_of_discard binding, completedCalls_of_error written]
    · exact fun b earlier => apart b earlier c List.mem_cons_self
    · intro d member
      rcases List.mem_cons.mp member with rfl | member
      · exact Nat.le_refl _
      · exact Nat.le_of_lt (List.rel_of_pairwise_cons increase member)

/-- Compiling a query logs the fallbacks of the calls that are complete where it ends, and then its error,
    if it has one. -/
theorem compileLogged_eq (registry : Registry α) (query : String) :
    registry.compileLogged query =
      (registry.compile query,
        registry.fallbackEvents (completedCalls query (registry.compile query)) ++
          failureEvents query (registry.compile query)) := by
  obtain ⟨answer, bound⟩ := registry.log_bindReading query
  have compiled : registry.compile query = answer := by
    rw [compile, compileLogged, bound]
    cases answer <;> rfl
  rw [compiled, compileLogged, bound]
  cases answer with
  | ok c => exact congrArg (Prod.mk _) (List.append_nil _).symm
  | error e => rfl

end Registry

end RecordQuery
