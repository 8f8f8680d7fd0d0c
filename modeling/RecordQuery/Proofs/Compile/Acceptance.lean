import RecordQuery.Proofs.Compile.Binding
import RecordQuery.Proofs.Grammar.Completeness
import RecordQuery.Proofs.Grammar.Soundness

/-!
# Which queries have a condition

A query is read to its end exactly if the grammar derives its tokens, and has a condition exactly if
the calls of its syntax tree have accessors too: `isOk_compile_iff`.
-/

namespace RecordQuery

open Grammar

/-- A query is read as its syntax tree. -/
theorem Reading.ofQuery_eq_complete_iff (query : String) (w : Written) :
    Reading.ofQuery query = .complete w ↔ Derives .condition maxNesting (tokenize query) w := by
  constructor
  · intro complete
    exact Reader.derives_of_run Reader.covers_empty complete
  · intro derived
    exact Reader.run_of_derives derived query.length

/-- A query has one syntax tree at most. -/
theorem Grammar.Derives.unique {query : String} {v w : Written}
    (left : Derives .condition maxNesting (tokenize query) v)
    (right : Derives .condition maxNesting (tokenize query) w) : v = w := by
  have read := (Reading.ofQuery_eq_complete_iff query v).mpr left
  rw [(Reading.ofQuery_eq_complete_iff query w).mpr right] at read
  cases read
  rfl

namespace Registry

variable {α : Type}

/-- A query's condition comes from its syntax tree. -/
theorem compile_eq_ok_iff_derives (registry : Registry α) (query : String) (c : Condition α) :
    registry.compile query = .ok c ↔
      ∃ w u, Derives .condition maxNesting (tokenize query) w ∧ registry.boundTree? w = some u ∧
        Condition.simplify u = c := by
  rw [compile_eq_ok_iff]
  constructor
  · intro compiled
    cases read : Reading.ofQuery query with
    | complete w =>
      rw [read, boundReading?, Option.map_eq_some_iff] at compiled
      obtain ⟨u, bound, simplified⟩ := compiled
      exact ⟨w, u, (Reading.ofQuery_eq_complete_iff query w).mp read, bound, simplified⟩
    | stopped calls error =>
      rw [read] at compiled
      cases compiled
  · rintro ⟨w, u, derived, bound, simplified⟩
    rw [(Reading.ofQuery_eq_complete_iff query w).mpr derived, boundReading?, bound,
      Option.map_some, simplified]

/-- A query has a condition if and only if the grammar derives its tokens with no more than
    `maxNesting` groups open at once, integers in range and lists of one type, and every call has an
    accessor for its name and the type of its argument. -/
theorem isOk_compile_iff (registry : Registry α) (query : String) :
    (∃ c, registry.compile query = .ok c) ↔
      ∃ w, Derives .condition maxNesting (tokenize query) w ∧
        ∀ c ∈ Condition.calls w, registry.Binds c.argument.type c.name := by
  constructor
  · rintro ⟨c, compiled⟩
    obtain ⟨w, u, derived, bound, _⟩ := (registry.compile_eq_ok_iff_derives query c).mp compiled
    exact ⟨w, derived, (registry.isSome_boundTree? w).mp (Option.isSome_of_eq_some bound)⟩
  · rintro ⟨w, derived, binds⟩
    obtain ⟨u, bound⟩ := Option.isSome_iff_exists.mp ((registry.isSome_boundTree? w).mpr binds)
    exact ⟨_, (registry.compile_eq_ok_iff_derives query _).mpr ⟨w, u, derived, bound, rfl⟩⟩

end Registry

end RecordQuery
