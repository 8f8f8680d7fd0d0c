import Mathlib
import RecordQuery.Proofs.Compile.NormalForm
import RecordQuery.Proofs.Compile.Resolution
import RecordQuery.Proofs.Registry.Suggestion

/-!
# Suggestions for misspelt calls

The error of a call without an accessor names the registered name that is the best match. Neither the
error nor the name depends on the order of the table or of the registrations: `compile_suggests_nearest`.
-/

namespace RecordQuery

open Grammar

/-- A reading does not stop for a call without an accessor. -/
theorem Reading.not_isUnbound_of_stopped {query : String} {calls : List (Call Nat)} {e : QueryError}
    (read : ofQuery query = .stopped calls e) : ¬ e.fault.IsUnbound := by
  obtain ⟨taken, syntactic, _⟩ := exists_syntacticOutcome query
  rw [read] at syntactic
  cases syntactic with
  | refused _ _ _ syntactic => exact syntactic
  | ended => rintro ⟨_, _, _, ⟨⟩⟩

/-- The names of the calls of a query are names of the language. -/
theorem Reading.isName_of_mem_calls {query : String} {c : Call Nat}
    (member : c ∈ (ofQuery query).calls) : IsName c.name := by
  obtain ⟨taken, syntactic, calls⟩ := exists_syntacticOutcome query
  obtain ⟨rest, tokens⟩ := syntactic.exists_rest
  rw [calls] at member
  obtain ⟨before, us, after, rfl, call⟩ := exists_of_mem_writtenCalls member
  refine (call.isPlain fun t inside => isName_of_tokenize query t ?_).named
  simp [tokens, inside]

namespace Registry

variable {α β : Type}

/-- What is reported for a call without an accessor is about the first such call. -/
theorem exists_unbound_call {registry : Registry α} {query : String} {e : QueryError}
    (reported : registry.compile query = .error e) (isUnbound : e.fault.IsUnbound) :
    ∃ before c after, (Reading.ofQuery query).calls = before ++ c :: after ∧
      (∀ b ∈ before, registry.Binds b.argument.type b.name) ∧
      ¬ registry.Binds c.argument.type c.name ∧ e = registry.unboundError c := by
  have ends := ends_of_compile reported
  generalize read : Reading.ofQuery query = reading at ends ⊢
  cases ends with
  | stopped => exact absurd isUnbound (Reading.not_isUnbound_of_stopped read)
  | unbound calls bound unbound => exact ⟨_, _, _, calls, bound, unbound, rfl⟩

/-- The tables of two registries have the same names, and both have a fallback for a type or neither. -/
structure SameNames (r : Registry α) (s : Registry β) : Prop where
  names : ∀ type name, name ∈ (r.methods type).names ↔ name ∈ (s.methods type).names
  fallback : ∀ type, (r.fallback type).isSome = (s.fallback type).isSome

namespace SameNames

variable {r : Registry α} {s : Registry β}

theorem binds (same : r.SameNames s) (type : LiteralType) (name : String) :
    r.Binds type name ↔ s.Binds type name := by
  rw [Binds, Binds, same.names, same.fallback]

theorem unboundError (same : r.SameNames s) (c : Call Nat) : r.unboundError c = s.unboundError c := by
  rw [Registry.unboundError, Registry.unboundError, suggest, suggest, suggestName_congr (same.names _)]

/-- Registries with the same names report the same call, with the same suggestion. -/
theorem compile_unbound {query : String} {e : QueryError} (same : r.SameNames s)
    (reported : r.compile query = .error e) (isUnbound : e.fault.IsUnbound) :
    s.compile query = .error e := by
  obtain ⟨before, c, after, calls, bound, unbound, rfl⟩ := exists_unbound_call reported isUnbound
  rw [compile_eq_outcome, same.unboundError]
  exact outcome_of_not_binds calls (fun b member => (same.binds _ _).mp (bound b member))
    (mt (same.binds _ _).mpr unbound)

end SameNames

/-- The registry after some registrations, each of an accessor under a name. -/
def registerAll (base : Registry α) (registrations : List (LiteralType × String × α)) : Registry α :=
  registrations.foldl (fun registry (type, name, accessor) => registry.register type name accessor) base

theorem mem_names_register (registry : Registry α) (type type' : LiteralType) (name name' : String)
    (accessor : α) :
    name ∈ ((registry.register type' name' accessor).methods type).names ↔
      (type, name) = (type', name') ∨ name ∈ (registry.methods type).names := by
  have added : ∀ t : AccessorTable α,
      name ∈ (t.register name' accessor).names ↔ name = name' ∨ name ∈ t.names := by
    intro t
    rw [← AccessorTable.isSome_find?_iff, AccessorTable.find?_register, ← AccessorTable.isSome_find?_iff]
    split
    · next same => simp only [same, Option.isSome_some, true_or]
    · next other => simp only [other, false_or]
  cases type' <;> cases type <;> simp [register, methods, added]

theorem fallback_register (registry : Registry α) (type type' : LiteralType) (name : String)
    (accessor : α) :
    (registry.register type' name accessor).fallback type = registry.fallback type := by
  cases type' <;> cases type <;> rfl

/-- The names after some registrations are those before them and those that are registered. -/
theorem mem_names_registerAll (base : Registry α) (registrations : List (LiteralType × String × α))
    (type : LiteralType) (name : String) :
    name ∈ ((base.registerAll registrations).methods type).names ↔
      (∃ accessor, (type, name, accessor) ∈ registrations) ∨ name ∈ (base.methods type).names := by
  induction registrations generalizing base with
  | nil => simp [registerAll]
  | cons r registrations ih =>
    obtain ⟨type', name', accessor⟩ := r
    rw [registerAll, List.foldl_cons, ← registerAll, ih, mem_names_register]
    simp only [List.mem_cons, Prod.mk.injEq, exists_or]
    grind

theorem fallback_registerAll (base : Registry α) (registrations : List (LiteralType × String × α))
    (type : LiteralType) : (base.registerAll registrations).fallback type = base.fallback type := by
  induction registrations generalizing base with
  | nil => rfl
  | cons r registrations ih =>
    rw [registerAll, List.foldl_cons, ← registerAll, ih, fallback_register]

/-- The order of the registrations makes no difference to the names. -/
theorem sameNames_of_perm (base : Registry α) {registrations others : List (LiteralType × String × α)}
    (perm : registrations.Perm others) :
    (base.registerAll registrations).SameNames (base.registerAll others) where
  names type name := by simp only [mem_names_registerAll, perm.mem_iff]
  fallback type := by rw [fallback_registerAll, fallback_registerAll]

/-- A call without an accessor is reported with the registered name that is the best match for it, if
    there is one. A registry that has the same names in any order reports the same, and so does one in
    which they were registered in another order. -/
theorem compile_suggests_nearest (registry : Registry α) (query : String) (offset : Nat) (name : String)
    (type : LiteralType) (suggestion : Option String)
    (reported : registry.compile query = .error ⟨offset, .unboundCall name type suggestion⟩) :
    (∀ best, suggestion = some best ↔ IsSuggestion name (registry.methods type).names best) ∧
      (∀ (β : Type) (s : Registry β), registry.SameNames s →
        s.compile query = .error ⟨offset, .unboundCall name type suggestion⟩) ∧
      ∀ (base : Registry α) (registrations others : List (LiteralType × String × α)),
        registry = base.registerAll registrations → registrations.Perm others →
          (base.registerAll others).compile query =
            .error ⟨offset, .unboundCall name type suggestion⟩ := by
  have agree : ∀ (β : Type) (s : Registry β), registry.SameNames s →
      s.compile query = .error ⟨offset, .unboundCall name type suggestion⟩ :=
    fun β s same => same.compile_unbound reported ⟨_, _, _, rfl⟩
  refine ⟨fun best => ?_, agree, ?_⟩
  · obtain ⟨before, c, after, calls, _, _, error⟩ := exists_unbound_call reported ⟨_, _, _, rfl⟩
    cases error
    have member : c ∈ (Reading.ofQuery query).calls := by simp [calls]
    exact suggestName_eq_some_iff (Reading.isName_of_mem_calls member)
  · rintro base registrations others rfl perm
    exact agree α _ (base.sameNames_of_perm perm)

/-- Two names are one edit away, and the first of them in the order of code points is suggested. A name
    that is empty, of the other table or two edits away is not, whatever the order. -/
theorem compile_suggests_nearest_of_two :
    let names : List (LiteralType × String × Bool) := [(.text, "recs", true), (.integer, "recq", true),
      (.text, "", true), (.text, "rec", true), (.text, "Reqs", true)]
    let query := "recq('x')"
    (registerAll {} names).compile query = .error ⟨0, .unboundCall "recq" .text (some "rec")⟩ ∧
      IsSuggestion "recq" ["recs", "", "rec", "Reqs"] "rec" ∧
      (registerAll {} names.reverse).compile query =
        .error ⟨0, .unboundCall "recq" .text (some "rec")⟩ := by
  intro names query
  have reported : (registerAll {} names).compile query =
      .error ⟨0, .unboundCall "recq" .text (some "rec")⟩ := by cbv
  obtain ⟨nearest, _, reordered⟩ := compile_suggests_nearest _ query 0 "recq" .text _ reported
  exact ⟨reported, (nearest "rec").mp rfl, reordered {} names _ rfl names.reverse_perm.symm⟩

end Registry

end RecordQuery
