import Mathlib
import RecordQuery.Proofs.Compile.NormalForm
import RecordQuery.Proofs.Condition.Outline

/-!
# Dumps tell compiled conditions apart

A compiled condition is in normal form, so that it can be recovered from its dump but for the accessors,
which are not shown: `dump_eq_iff_of_compile`.
-/

namespace RecordQuery.Registry

variable {α β : Type}

/-- Two compiled conditions have the same dump, at any level, if and only if they are the same but for
    their accessors: the same groups with the same operands in the same order, and the same tests with the
    names, arguments and negations of their calls, their relations and constants. The queries may be
    different ones, and so may the registries and what they have for accessors. -/
theorem dump_eq_iff_of_compile (registry : Registry α) (registry' : Registry β) (query query' : String)
    (c : Condition α) (d : Condition β) (compiled : registry.compile query = .ok c)
    (compiled' : registry'.compile query' = .ok d) (level : Nat) :
    c.dump level = d.dump level ↔ c.bare = d.bare := by
  obtain ⟨w, u, derived, bound, simplified⟩ := (registry.compile_eq_ok_iff_derives query c).mp compiled
  obtain ⟨w', u', derived', bound', simplified'⟩ :=
    (registry'.compile_eq_ok_iff_derives query' d).mp compiled'
  have normal := Yields.isNormal (yields_iff.mpr ⟨u, bound, simplified⟩) derived
  have normal' := Yields.isNormal (yields_iff.mpr ⟨u', bound', simplified'⟩) derived'
  exact Condition.dump_eq_iff normal normal' level

/-- Accessors are not shown. A constant with quotes and a newline in it is not taken for two constants. -/
theorem dump_eq_iff_of_compile_quotes :
    let registry : Registry Bool := { textFallback := some true }
    let registry' : Registry Nat := { textFallback := some 7 }
    let three := "f('x') in ('a', 'b', 'c')"
    let two := "f('x') in ('a', 'b\"\\n  \"c')"
    ∃ c c' d, registry.compile three = .ok c ∧ registry'.compile three = .ok c' ∧
      registry.compile two = .ok d ∧ c.dump 1 = c'.dump 1 ∧ c.dump 1 ≠ d.dump 1 := by
  intro registry registry' three two
  have compiled : registry.compile three = .ok (.test (.member ⟨"f", .text "x", true, false⟩
    (.texts ["a", "b", "c"]) false)) := by cbv
  have compiled' : registry'.compile three = .ok (.test (.member ⟨"f", .text "x", 7, false⟩
    (.texts ["a", "b", "c"]) false)) := by cbv
  have compiledTwo : registry.compile two = .ok (.test (.member ⟨"f", .text "x", true, false⟩
    (.texts ["a", "b\"\n  \"c"]) false)) := by cbv
  refine ⟨_, _, _, compiled, compiled', compiledTwo,
    (dump_eq_iff_of_compile registry registry' _ _ _ _ compiled compiled' 1).mpr rfl,
    (dump_eq_iff_of_compile registry registry _ _ _ _ compiled compiledTwo 1).not.mpr ?_⟩
  simp [Condition.bare, Formula.map, Test.bare]

end RecordQuery.Registry
