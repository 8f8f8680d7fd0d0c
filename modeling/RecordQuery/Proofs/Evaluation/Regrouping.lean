import RecordQuery.Proofs.Evaluation.Holds
import RecordQuery.Proofs.Evaluation.Observation

/-!
# Regrouping

A group inside a group of the same kind may be dissolved into it, and a group of one operand may be
replaced by that operand, anywhere in a condition: no evaluation shows the difference
(`Condition.observe_regrouped`). As in `Holds`, this is said of trials in any lawful monad first. Formulas
that are tried alike may be exchanged in any surroundings (`Formula.Surroundings.holds_fill`).
-/

namespace RecordQuery

namespace Formula

variable {τ : Type}

/-- A formula with one place left open. -/
inductive Surroundings (τ : Type) where
  | hole
  | all (before : List (Formula τ)) (around : Surroundings τ) (after : List (Formula τ))
  | any (before : List (Formula τ)) (around : Surroundings τ) (after : List (Formula τ))
  | not (around : Surroundings τ)

/-- The formula with another one in the open place. -/
def Surroundings.fill : Surroundings τ → Formula τ → Formula τ
  | hole, f => f
  | all before around after, f => .all (before ++ around.fill f :: after)
  | any before around after, f => .any (before ++ around.fill f :: after)
  | not around, f => .not (around.fill f)

variable {m : Type → Type} [Monad m] [LawfulMonad m] {check : τ → m Bool} {f g : Formula τ}

/-- An operand of a group may be exchanged for one that is tried alike. -/
theorem groupHolds_exchange (same : holds check f = holds check g) (every : Bool)
    (before after : List (Formula τ)) :
    groupHolds check every (before ++ f :: after) = groupHolds check every (before ++ g :: after) := by
  rw [groupHolds_append, groupHolds_append, groupHolds_cons, groupHolds_cons, same]

/-- Formulas that are tried alike are so in all surroundings. -/
theorem Surroundings.holds_fill (same : holds check f = holds check g) (around : Surroundings τ) :
    holds check (around.fill f) = holds check (around.fill g) := by
  induction around with
  | hole => exact same
  | all before around after ih => exact groupHolds_exchange ih true before after
  | any before around after ih => exact groupHolds_exchange ih false before after
  | not around ih => simp only [fill, holds, ih]

/-- An operand that is tried as a group of the same kind may be replaced by the operands of that group.
    If one of these decides the inner group, it decides the outer one too. -/
theorem groupHolds_dissolve (every : Bool) {ys : List (Formula τ)}
    (inner : holds check f = groupHolds check every ys) (xs zs : List (Formula τ)) :
    groupHolds check every (xs ++ [f] ++ zs) = groupHolds check every (xs ++ ys ++ zs) := by
  have rest : groupHolds check every ([f] ++ zs) = groupHolds check every (ys ++ zs) := by
    rw [groupHolds_append, groupHolds_singleton, inner, groupHolds_append]
  rw [List.append_assoc, groupHolds_append, rest, List.append_assoc, ← groupHolds_append]

end Formula

namespace Condition

variable {α ρ σ ε : Type}

/-- Conditions that evaluate alike show the same in all surroundings. -/
theorem observe_fill {host : Host α ρ σ ε} {c d : Condition α}
    (same : c.isTrue host.recording = d.isTrue host.recording)
    (around : Formula.Surroundings (Test α)) (context : Context ρ) (state : σ) :
    observe host (around.fill c) context state = observe host (around.fill d) context state := by
  have filled := around.holds_fill same
  unfold observe isTrue
  rw [filled]

/-- Wherever they stand in a condition, a conjunction among the operands of a conjunction may be replaced
    by its own operands, a disjunction among those of a disjunction as well, and a group of any number of
    operands by what collapses if the number is one: the answer or the error, the invocations, the
    context and the host's state after them stay the same. -/
theorem observe_regrouped (host : Host α ρ σ ε) (around : Formula.Surroundings (Test α))
    (xs ys zs cs : List (Condition α)) (context : Context ρ) (state : σ) :
    observe host (around.fill (.all (xs ++ [.all ys] ++ zs))) context state =
        observe host (around.fill (.all (xs ++ ys ++ zs))) context state ∧
      observe host (around.fill (.any (xs ++ [.any ys] ++ zs))) context state =
        observe host (around.fill (.any (xs ++ ys ++ zs))) context state ∧
      observe host (around.fill (.all cs)) context state =
        observe host (around.fill (Formula.conjunction cs)) context state ∧
      observe host (around.fill (.any cs)) context state =
        observe host (around.fill (Formula.disjunction cs)) context state := by
  have exchange : ∀ {c d : Condition α}, c.isTrue host.recording = d.isTrue host.recording →
      observe host (around.fill c) context state = observe host (around.fill d) context state :=
    fun same => observe_fill same around context state
  refine ⟨exchange ?_, exchange ?_, exchange ?_, exchange ?_⟩
  · exact Formula.groupHolds_dissolve true rfl xs zs
  · exact Formula.groupHolds_dissolve false rfl xs zs
  · exact (Formula.holds_conjunction _ cs).symm
  · exact (Formula.holds_disjunction _ cs).symm

end Condition

end RecordQuery
