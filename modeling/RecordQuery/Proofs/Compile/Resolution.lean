import Mathlib
import RecordQuery.Proofs.Compile.CallOrder
import RecordQuery.Proofs.Compile.FirstError
import RecordQuery.Proofs.Condition.Bare
import RecordQuery.Proofs.Grammar.WrittenCalls

/-!
# What a registry has a say in

The tokens of a query alone decide which tree it has or which error ends its reading, and which calls
are complete by then. A registry says whether these calls have accessors, and which: the first one
without an accessor is reported in place of what the tokens decide. `compile_resolves` says so, and what
follows for two registries.
-/

namespace RecordQuery

open Grammar

/-- What the tokens of a query decide: the tokens that are taken before the outcome is reached, and a
    tree without accessors or an error that is not about a call. -/
inductive SyntacticOutcome (query : String) :
    List Token → Except QueryError (Condition Unit) → Prop
  | condition {w : Written} (derived : Derives .condition maxNesting (tokenize query) w) :
      SyntacticOutcome query (tokenize query) (.ok w.simplify.bare)
  /-- No query begins with the tokens up to `t`. -/
  | refused {taken rest : List Token} {t : Token} {e : QueryError}
      (tokens : tokenize query = taken ++ t :: rest) (begun : Completable taken)
      (stuck : ¬ Viable (taken ++ [t])) (syntactic : ¬ e.fault.IsUnbound)
      (place : e.offset = t.offset ∨ e = ⟨query.length, .endsTooEarly⟩) :
      SyntacticOutcome query taken (.error e)
  /-- More tokens are needed. -/
  | ended (begun : Completable (tokenize query))
      (incomplete : ∀ w, ¬ Derives .condition maxNesting (tokenize query) w) :
      SyntacticOutcome query (tokenize query) (.error ⟨query.length, .endsTooEarly⟩)

/-- The tokens that are taken are the first ones of the query. -/
theorem SyntacticOutcome.exists_rest {query : String} {taken : List Token}
    {outcome : Except QueryError (Condition Unit)} (syntactic : SyntacticOutcome query taken outcome) :
    ∃ rest, tokenize query = taken ++ rest := by
  cases syntactic with
  | condition | ended => exact ⟨[], (List.append_nil _).symm⟩
  | refused tokens => exact ⟨_, tokens⟩

/-- The outcome that a reading comes to if all of its calls have accessors. -/
def Reading.bareOutcome : Reading → Except QueryError (Condition Unit)
  | complete w => .ok w.simplify.bare
  | stopped _ e => .error e

/-- An error of the reader is not about the accessor of a call. It is at the refused token, or at the
    end of the query. -/
theorem Reader.place_of_step {query : String} {before after : List Token} {t : Token} {r : Reader}
    {e : QueryError} (tokens : tokenize query = before ++ t :: after)
    (refused : r.step t = .error e) :
    ¬ e.fault.IsUnbound ∧ (e.offset = t.offset ∨ e = ⟨query.length, .endsTooEarly⟩) := by
  have member : t ∈ tokenize query := by simp [tokens]
  cases Reader.refusal_of_step refused with
  | unexpected =>
    rcases QueryError.unexpected_cases member with early | ⟨misplaced, _⟩
    · rw [early]
      exact ⟨by rintro ⟨_, _, _, ⟨⟩⟩, .inr rfl⟩
    · rw [misplaced]
      exact ⟨by rintro ⟨_, _, _, ⟨⟩⟩, .inl rfl⟩
  | outOfRange | tooDeep => exact ⟨by rintro ⟨_, _, _, ⟨⟩⟩, .inl rfl⟩

/-- The tokens of a query decide where its reading ends and what it comes to. -/
theorem Reading.exists_syntacticOutcome (query : String) :
    ∃ taken, SyntacticOutcome query taken (ofQuery query).bareOutcome ∧
      (ofQuery query).calls = writtenCalls taken := by
  cases read : ofQuery query with
  | complete w =>
    have derived := (ofQuery_eq_complete_iff query w).mp read
    exact ⟨tokenize query, .condition derived, (HasCalls.of_derives derived).writtenCalls_eq.symm⟩
  | stopped calls e =>
    rcases Reader.takes_of_run read with ⟨before, t, after, s, tokens, takes, refused, rfl⟩ |
      ⟨s, takes, finished, rfl⟩
    · obtain ⟨syntactic, place⟩ := Reader.place_of_step tokens refused
      exact ⟨before, .refused tokens takes.completable (takes.not_viable refused) syntactic place,
        takes.calls⟩
    · have early := Reader.eq_of_finish finished
      subst early
      refine ⟨tokenize query, .ended takes.completable fun w derived => ?_, takes.calls⟩
      rw [(ofQuery_eq_complete_iff query w).mpr derived] at read
      cases read

namespace Registry

/-- The registry `s` is `r` with more accessors registered, or others under the same names, and with
    more fallbacks or other ones. -/
inductive Extends {α : Type} (r : Registry α) : Registry α → Prop
  | refl : Extends r r
  | register {s : Registry α} (before : Extends r s) (type : LiteralType) (name : String)
      (accessor : α) : Extends r (s.register type name accessor)
  | setFallback {s : Registry α} (before : Extends r s) (type : LiteralType) (accessor : α) :
      Extends r (s.setFallback type accessor)

section Extends

variable {α : Type} {r s : Registry α} {type : LiteralType} {name : String}

theorem Binds.register (binds : r.Binds type name) (type' : LiteralType) (name' : String)
    (accessor : α) : (r.register type' name' accessor).Binds type name := by
  rw [Binds, ← AccessorTable.isSome_find?_iff] at binds ⊢
  have kept : ∀ t : AccessorTable α, (t.find? name).isSome →
      ((t.register name' accessor).find? name).isSome := by
    intro t found
    rw [AccessorTable.find?_register]
    split
    · rfl
    · exact found
  rcases binds with found | stands
  · left
    cases type' <;> cases type <;> first | exact kept _ found | exact found
  · right
    cases type' <;> cases type <;> exact stands

theorem Binds.setFallback (binds : r.Binds type name) (type' : LiteralType) (accessor : α) :
    (r.setFallback type' accessor).Binds type name := by
  rcases binds with found | stands
  · left
    cases type' <;> cases type <;> exact found
  · right
    cases type' <;> cases type <;> first | rfl | exact stands

theorem Extends.binds (extend : r.Extends s) (binds : r.Binds type name) : s.Binds type name := by
  induction extend with
  | refl => exact binds
  | register _ type' name' accessor ih => exact ih.register type' name' accessor
  | setFallback _ type' accessor ih => exact ih.setFallback type' accessor

end Extends

variable {α : Type} {registry : Registry α} {reading : Reading} {before after : List (Call Nat)}
  {c : Call Nat}

theorem bare_of_boundCall? {d : Call α} (bound : registry.boundCall? c = some d) :
    d.bare = c.bare := by
  obtain ⟨r, _, rfl⟩ := Option.map_eq_some_iff.mp bound
  rfl

theorem supplies_of_boundCall? {d : Call α} (bound : registry.boundCall? c = some d) :
    registry.Supplies d := by
  obtain ⟨r, found, rfl⟩ := Option.map_eq_some_iff.mp bound
  exact supplies_iff.mpr (congrArg (Option.map Resolution.accessor) found)

/-- If all calls have accessors, a reading comes to what its tokens decide. -/
theorem outcome_of_binds (binds : ∀ c ∈ reading.calls, registry.Binds c.argument.type c.name) :
    (registry.outcome reading).map Condition.bare = reading.bareOutcome ∧
      ∀ c, registry.outcome reading = .ok c → ∀ d ∈ c.calls, registry.Supplies d := by
  have ends := registry.ends_outcome reading
  generalize registry.outcome reading = outcome at ends ⊢
  cases ends with
  | @complete w u bound =>
    have yields : registry.Yields w u.simplify := yields_iff.mpr ⟨u, bound, rfl⟩
    constructor
    · exact congrArg Except.ok (Condition.bare_of_traverse (fun _ _ => bare_of_boundCall?) yields)
    · rintro _ ⟨⟩
      exact Condition.forall_calls_of_traverse (fun _ _ => supplies_of_boundCall?) yields
  | stopped => exact ⟨rfl, by rintro c ⟨⟩⟩
  | unbound order _ unbound =>
    rw [order] at binds
    exact absurd (binds _ (by simp)) unbound

/-- A registry that reports no call has accessors for all of them. -/
theorem binds_of_outcome
    (reported : ∀ e, registry.outcome reading = .error e → ¬ e.fault.IsUnbound) :
    ∀ c ∈ reading.calls, registry.Binds c.argument.type c.name := by
  have ends := registry.ends_outcome reading
  generalize registry.outcome reading = outcome at reported ends
  cases ends with
  | complete bound => exact (registry.isSome_boundTree? _).mp (Option.isSome_of_eq_some bound)
  | stopped binds => exact binds
  | unbound => exact absurd ⟨_, _, _, rfl⟩ (reported _ rfl)

/-- The tokens of a query decide on some calls and on an outcome, which is a tree without accessors or
    an error that is not about a call. A registry without an accessor for one of the calls reports the
    first such call, at the offset of its name. Every other registry has the outcome, with its own
    accessors in the calls: the one registered under the name, or the fallback if there is none. So
    registries that do not report a call agree on the query but for accessors, and a query that a
    registry accepts is accepted with more methods or fallbacks too. -/
theorem compile_resolves (query : String) :
    ∃ taken outcome, SyntacticOutcome query taken outcome ∧
      (∀ (α : Type) (registry : Registry α),
        (∀ before c after, writtenCalls taken = before ++ c :: after →
          (∀ b ∈ before, registry.Binds b.argument.type b.name) →
          ¬ registry.Binds c.argument.type c.name →
          registry.compile query = .error ⟨c.accessor,
            .unboundCall c.name c.argument.type (registry.suggest c.argument.type c.name)⟩) ∧
        ((∀ c ∈ writtenCalls taken, registry.Binds c.argument.type c.name) →
          (registry.compile query).map Condition.bare = outcome ∧
            ∀ c, registry.compile query = .ok c → ∀ d ∈ c.calls, registry.Supplies d)) ∧
      (∀ (α β : Type) (r : Registry α) (s : Registry β),
        (∀ e, r.compile query = .error e → ¬ e.fault.IsUnbound) →
        (∀ e, s.compile query = .error e → ¬ e.fault.IsUnbound) →
        (r.compile query).map Condition.bare = (s.compile query).map Condition.bare) ∧
      ∀ (α : Type) (r s : Registry α), r.Extends s → (∃ c, r.compile query = .ok c) →
        ∃ c, s.compile query = .ok c := by
  obtain ⟨taken, syntactic, calls⟩ := Reading.exists_syntacticOutcome query
  refine ⟨taken, _, syntactic, ?_, ?_, ?_⟩
  · intro α registry
    rw [compile_eq_outcome, ← calls]
    exact ⟨fun before c after => outcome_of_not_binds, outcome_of_binds⟩
  · intro α β r s left right
    rw [compile_eq_outcome] at left right ⊢
    rw [compile_eq_outcome, (outcome_of_binds (binds_of_outcome left)).1,
      (outcome_of_binds (binds_of_outcome right)).1]
  · rintro α r s extend ⟨c, accepted⟩
    rw [compile_eq_outcome] at accepted ⊢
    have binds : ∀ c ∈ (Reading.ofQuery query).calls, r.Binds c.argument.type c.name := by
      apply binds_of_outcome
      simp [accepted]
    -- both registries have the outcome of the tokens, so it is no error for the second one either
    have same := (outcome_of_binds binds).1
    have same' := (outcome_of_binds fun c member => extend.binds (binds c member)).1
    rw [← same, accepted] at same'
    cases compiled : s.outcome (.ofQuery query) with
    | ok d => exact ⟨d, rfl⟩
    | error e =>
      rw [compiled] at same'
      cases same'

/-- A call without an accessor on the right of a relation, and registries that have both accessors. -/
theorem compile_resolves_right_call :
    let query := "a(1) = b('x')"
    let r : Registry Bool := { integerFallback := some true }
    let s : Registry Nat := { integerFallback := some 0, textFallback := some 1 }
    r.compile query = .error ⟨7, .unboundCall "b" .text none⟩ ∧
      ((r.setFallback .text false).compile query).map Condition.bare =
        (s.compile query).map Condition.bare ∧
      ∃ c, (s.register .text "b" 2).compile query = .ok c := by
  intro query r s
  obtain ⟨taken, outcome, _, _, agree, grow⟩ := compile_resolves query
  have accepted : ∃ c, s.compile query = .ok c := ⟨_, by cbv⟩
  have accepted' : ∃ c, (r.setFallback .text false).compile query = .ok c := ⟨_, by cbv⟩
  refine ⟨by cbv, agree Bool Nat _ s ?_ ?_, grow Nat s _ (.register .refl .text "b" 2) accepted⟩
  · intro e failed
    obtain ⟨c, compiled⟩ := accepted'
    cases compiled.symm.trans failed
  · intro e failed
    obtain ⟨c, compiled⟩ := accepted
    cases compiled.symm.trans failed

end Registry

end RecordQuery
