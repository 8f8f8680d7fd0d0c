import RecordQuery.Proofs.Compile.Acceptance
import RecordQuery.Proofs.Evaluation.TruthValue

/-!
# The shape of compiled conditions

A syntax tree of the grammar has no empty groups. Putting accessors into a tree keeps its shape, and
simplifying it takes groups away but no operands, so a compiled condition has no empty groups either:
`full_of_compile`.
-/

namespace RecordQuery

namespace Formula

variable {τ υ : Type}

/-- A traversal that succeeds has a formula for each formula. -/
theorem traverseAll_eq_some {f : τ → Option υ} {gs : List (Formula τ)} {hs : List (Formula υ)}
    (done : traverseAll f gs = some hs) :
    hs.length = gs.length ∧ ∀ h ∈ hs, ∃ g ∈ gs, traverse f g = some h := by
  induction gs generalizing hs with
  | nil =>
    cases done
    exact ⟨rfl, nofun⟩
  | cons g gs ih =>
    simp only [traverseAll, Option.bind_eq_bind, Option.bind_eq_some_iff, Option.pure_def,
      Option.some.injEq] at done
    obtain ⟨h, first, rest, others, rfl⟩ := done
    obtain ⟨count, each⟩ := ih others
    refine ⟨by rw [List.length_cons, count, List.length_cons], fun k member => ?_⟩
    rcases List.mem_cons.mp member with rfl | member
    · exact ⟨g, List.mem_cons_self, first⟩
    · obtain ⟨l, inside, traversed⟩ := each k member
      exact ⟨l, List.mem_cons_of_mem g inside, traversed⟩

namespace Full

/-- What is done to the operands of a group leaves some operands, and none with an empty group. -/
theorem traverseAll {f : τ → Option υ} {gs : List (Formula τ)} {hs : List (Formula υ)}
    (some : gs ≠ []) (each : ∀ g ∈ gs, ∀ h, Formula.traverse f g = .some h → h.Full)
    (done : Formula.traverseAll f gs = .some hs) : hs ≠ [] ∧ ∀ h ∈ hs, h.Full := by
  obtain ⟨count, traversed⟩ := traverseAll_eq_some done
  refine ⟨fun none => some ?_, fun h member => ?_⟩
  · rw [none, List.length_nil] at count
    exact List.length_eq_zero_iff.mp count.symm
  · obtain ⟨g, inside, result⟩ := traversed h member
    exact each g inside h result

theorem traverse {f : τ → Option υ} {g : Formula τ} (full : g.Full) {h : Formula υ}
    (done : g.traverse f = some h) : h.Full := by
  induction full generalizing h with
  | all some _ each =>
    simp only [Formula.traverse, bind_pure_comp, Option.map_eq_map, Option.map_eq_some_iff] at done
    obtain ⟨hs, operands, rfl⟩ := done
    obtain ⟨some', full⟩ := traverseAll some (fun g member _ => each g member) operands
    exact .all some' full
  | any some _ each =>
    simp only [Formula.traverse, bind_pure_comp, Option.map_eq_map, Option.map_eq_some_iff] at done
    obtain ⟨hs, operands, rfl⟩ := done
    obtain ⟨some', full⟩ := traverseAll some (fun g member _ => each g member) operands
    exact .any some' full
  | not _ inside =>
    simp only [Formula.traverse, bind_pure_comp, Option.map_eq_map, Option.map_eq_some_iff] at done
    obtain ⟨k, operand, rfl⟩ := done
    exact .not (inside operand)
  | test t =>
    simp only [Formula.traverse, bind_pure_comp, Option.map_eq_map, Option.map_eq_some_iff] at done
    obtain ⟨u, _, rfl⟩ := done
    exact .test u

theorem conjunction {fs : List (Formula τ)} (some : fs ≠ []) (each : ∀ f ∈ fs, f.Full) :
    (conjunction fs).Full := by
  unfold Formula.conjunction
  split
  · exact each _ (List.mem_singleton_self _)
  · exact .all some each

theorem disjunction {fs : List (Formula τ)} (some : fs ≠ []) (each : ∀ f ∈ fs, f.Full) :
    (disjunction fs).Full := by
  unfold Formula.disjunction
  split
  · exact each _ (List.mem_singleton_self _)
  · exact .any some each

theorem settleAll {leaf : Bool → τ → υ} {fs : List (Formula τ)} (some : fs ≠ [])
    (each : ∀ f ∈ fs, ∀ negated, (f.settle leaf negated).Full) (negated : Bool) :
    Formula.settleAll leaf negated fs ≠ [] ∧ ∀ f ∈ Formula.settleAll leaf negated fs, f.Full := by
  rw [settleAll_eq_map]
  refine ⟨fun none => some (List.map_eq_nil_iff.mp none), fun g member => ?_⟩
  obtain ⟨f, inside, rfl⟩ := List.mem_map.mp member
  exact each f inside negated

theorem settle {leaf : Bool → τ → υ} {f : Formula τ} (full : f.Full) (negated : Bool) :
    (f.settle leaf negated).Full := by
  induction full generalizing negated with
  | all some _ each =>
    obtain ⟨some', full⟩ := settleAll some each negated
    cases negated with
    | true => exact disjunction some' full
    | false => exact conjunction some' full
  | any some _ each =>
    obtain ⟨some', full⟩ := settleAll some each negated
    cases negated with
    | true => exact conjunction some' full
    | false => exact disjunction some' full
  | not _ inside => exact inside !negated
  | test t => exact .test _

/-- A group with one more operand. -/
theorem snoc {fs : List (Formula τ)} {f : Formula τ} (each : ∀ g ∈ fs, g.Full) (last : f.Full) :
    fs ++ [f] ≠ [] ∧ ∀ g ∈ fs ++ [f], g.Full := by
  refine ⟨List.append_ne_nil_of_right_ne_nil fs (List.cons_ne_nil f []), ?_⟩
  rw [List.forall_mem_append, List.forall_mem_singleton]
  exact ⟨each, last⟩

end Full

end Formula

/-- The syntax trees of the grammar have no empty groups. -/
theorem Grammar.Derives.full {p : Grammar.Phrase} {n : Nat} {ts : List Token} {w : Written}
    (derived : Derives p n ts w) : w.Full := by
  have single : ∀ {w : Written}, w.Full → [w] ≠ [] ∧ ∀ v ∈ [w], v.Full := by
    intro w full
    exact ⟨List.cons_ne_nil w [], by rwa [List.forall_mem_singleton]⟩
  induction derived with
  | comparison _ => exact .test _
  | negation _ _ operand => exact .not operand
  | group _ _ _ inside => exact inside
  | item _ first => exact .all (single first).1 (single first).2
  | and _ _ _ before last =>
    cases before with
    | all _ each => exact .all (Formula.Full.snoc each last).1 (Formula.Full.snoc each last).2
  | condition _ first => exact .any (single first).1 (single first).2
  | or _ _ _ before last =>
    cases before with
    | any _ each => exact .any (Formula.Full.snoc each last).1 (Formula.Full.snoc each last).2

/-- A compiled condition has no empty groups. -/
theorem Registry.full_of_compile {α : Type} {registry : Registry α} {query : String} {c : Condition α}
    (compiled : registry.compile query = .ok c) : c.Full := by
  obtain ⟨w, u, derived, bound, rfl⟩ := (registry.compile_eq_ok_iff_derives query c).mp compiled
  exact (derived.full.traverse bound).settle false

end RecordQuery
