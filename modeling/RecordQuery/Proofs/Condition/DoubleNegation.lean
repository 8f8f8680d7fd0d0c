import Mathlib
import RecordQuery.Proofs.Condition.Height

/-!
# Negating twice

The complement of a condition without negation nodes is its mirror image: conjunctions and disjunctions
change places, and every test stays where it is, about the same calls and constants. So the complement of
the complement is the condition itself: `Condition.negate_restores`. A negation node is taken away when it
is met, and what is below it stays as it is; then only bounds are left.
-/

namespace RecordQuery

namespace Formula

variable {τ υ : Type}

mutual

/-- The number of negations in a formula. -/
def nots : Formula τ → Nat
  | all fs => notsAll fs
  | any fs => notsAll fs
  | not f => nots f + 1
  | test _ => 0

/-- The number of negations in some formulas. -/
def notsAll : List (Formula τ) → Nat
  | [] => 0
  | f :: fs => nots f + notsAll fs

end

/-- `Mirrors related f g`: the formulas are free of negations and have the same shape, but for
    disjunctions in the places of conjunctions and the other way around. Tests in the same place are
    `related`. -/
inductive Mirrors (related : τ → υ → Prop) : Formula τ → Formula υ → Prop
  | all {fs : List (Formula τ)} {gs : List (Formula υ)}
      (operands : List.Forall₂ (Mirrors related) fs gs) : Mirrors related (.all fs) (.any gs)
  | any {fs : List (Formula τ)} {gs : List (Formula υ)}
      (operands : List.Forall₂ (Mirrors related) fs gs) : Mirrors related (.any fs) (.all gs)
  | test {t : τ} {u : υ} (tests : related t u) : Mirrors related (.test t) (.test u)

theorem nots_conjunction (fs : List (Formula τ)) : nots (conjunction fs) = notsAll fs := by
  match fs with
  | [] | _ :: _ :: _ => rfl
  | [f] => rfl

theorem nots_disjunction (fs : List (Formula τ)) : nots (disjunction fs) = notsAll fs := by
  match fs with
  | [] | _ :: _ :: _ => rfl
  | [f] => rfl

mutual

/-- A settled formula has no negations. -/
theorem nots_settle (leaf : Bool → τ → υ) (negated : Bool) :
    ∀ f : Formula τ, nots (settle leaf negated f) = 0
  | all fs | any fs => by
    have operands := notsAll_settleAll leaf negated fs
    rw [settle]
    split
    all_goals simpa only [nots_conjunction, nots_disjunction] using operands
  | not f => nots_settle leaf (!negated) f
  | test _ => rfl

theorem notsAll_settleAll (leaf : Bool → τ → υ) (negated : Bool) :
    ∀ fs : List (Formula τ), notsAll (settleAll leaf negated fs) = 0
  | [] => rfl
  | f :: fs => by
    rw [settleAll, notsAll, nots_settle leaf negated f, notsAll_settleAll leaf negated fs]

end

mutual

/-- The complement has no negations but those of the formula. -/
theorem nots_negate_le (flip : τ → τ) : ∀ f : Formula τ, nots (negate flip f) ≤ nots f
  | all fs | any fs => notsAll_negateAll_le flip fs
  | not f => Nat.le_succ (nots f)
  | test _ => Nat.le_refl 0

theorem notsAll_negateAll_le (flip : τ → τ) :
    ∀ fs : List (Formula τ), notsAll (negateAll flip fs) ≤ notsAll fs
  | [] => Nat.le_refl 0
  | f :: fs => Nat.add_le_add (nots_negate_le flip f) (notsAll_negateAll_le flip fs)

end

mutual

/-- The complement is no higher than the formula. -/
theorem height_negate_le (flip : τ → τ) : ∀ f : Formula τ, height (negate flip f) ≤ height f
  | all fs | any fs => Nat.succ_le_succ (heightAll_negateAll_le flip fs)
  | not f => Nat.le_succ (height f)
  | test _ => Nat.le_refl 1

theorem heightAll_negateAll_le (flip : τ → τ) :
    ∀ fs : List (Formula τ), heightAll (negateAll flip fs) ≤ heightAll fs
  | [] => Nat.le_refl 0
  | f :: fs => by
    have first := height_negate_le flip f
    have others := heightAll_negateAll_le flip fs
    simp only [negateAll, heightAll]
    omega

end

mutual

/-- Without negations the complement is the mirror image. -/
theorem mirrors_negate {flip : τ → τ} {related : τ → τ → Prop} (tests : ∀ t, related t (flip t)) :
    ∀ f : Formula τ, nots f = 0 → Mirrors related f (negate flip f)
  | all fs, free => .all (mirrors_negateAll tests fs free)
  | any fs, free => .any (mirrors_negateAll tests fs free)
  | not _, free => absurd free (Nat.succ_ne_zero _)
  | test t, _ => .test (tests t)

theorem mirrors_negateAll {flip : τ → τ} {related : τ → τ → Prop} (tests : ∀ t, related t (flip t)) :
    ∀ fs : List (Formula τ), notsAll fs = 0 → List.Forall₂ (Mirrors related) fs (negateAll flip fs)
  | [], _ => .nil
  | f :: fs, free => by
    obtain ⟨first, others⟩ := Nat.add_eq_zero_iff.mp free
    exact .cons (mirrors_negate tests f first) (mirrors_negateAll tests fs others)

end

mutual

/-- Without negations the complement of the complement is the formula itself. -/
theorem negate_negate_of_nots {flip : τ → τ} (tests : ∀ t, flip (flip t) = t) :
    ∀ f : Formula τ, nots f = 0 → negate flip (negate flip f) = f
  | all fs, free => congrArg all (negateAll_negateAll_of_notsAll tests fs free)
  | any fs, free => congrArg any (negateAll_negateAll_of_notsAll tests fs free)
  | not _, free => absurd free (Nat.succ_ne_zero _)
  | test t, _ => congrArg test (tests t)

theorem negateAll_negateAll_of_notsAll {flip : τ → τ} (tests : ∀ t, flip (flip t) = t) :
    ∀ fs : List (Formula τ), notsAll fs = 0 → negateAll flip (negateAll flip fs) = fs
  | [], _ => rfl
  | f :: fs, free => by
    obtain ⟨first, others⟩ := Nat.add_eq_zero_iff.mp free
    rw [negateAll, negateAll, negate_negate_of_nots tests f first,
      negateAll_negateAll_of_notsAll tests fs others]

end

end Formula

variable {α : Type}

/-- Two tests of the same kind, with the same calls in the same order and the same constants. They may
    differ in the relation between them and in whether a call or the test is inverted. -/
inductive Test.SameSubject : Test α → Test α → Prop
  | call (c : Call α) (negated : Bool) : SameSubject (.call c) (.call { c with negated })
  | compare (c : Call α) (r s : Relation) (target : Literal) :
      SameSubject (.compare c r target) (.compare c s target)
  | compareCalls (left right : Call α) (r s : Relation) :
      SameSubject (.compareCalls left r right) (.compareCalls left s right)
  | member (c : Call α) (choices : Choices) (a b : Bool) :
      SameSubject (.member c choices a) (.member c choices b)
  | memberCall (left right : Call α) (a b : Bool) :
      SameSubject (.memberCall left right a) (.memberCall left right b)

theorem Test.sameSubject_negate (t : Test α) : t.SameSubject t.negate := by
  cases t with
  | call c => exact .call c _
  | compare c r target => exact .compare c r _ target
  | compareCalls left r right => exact .compareCalls left right r _
  | member c choices negated => exact .member c choices negated _
  | memberCall left right negated => exact .memberCall left right negated _

/-- What comes back after two turns is where it was after an even number of them. -/
theorem iterate_of_return {β : Type} {f : β → β} {b : β} (back : f (f b) = b) (n : Nat) :
    f^[n] b = if Even n then b else f b := by
  induction n with
  | zero => rw [Function.iterate_zero_apply, if_pos Even.zero]
  | succ n ih =>
    rw [Function.iterate_succ_apply', ih]
    by_cases even : Even n
    · rw [if_pos even, if_neg (Nat.even_add_one.not.mpr (not_not.mpr even))]
    · rw [if_neg even, if_pos (Nat.even_add_one.mpr even), back]

namespace Condition

/-- Without negation nodes the complement of a condition has none either. It has the same shape, with
    conjunctions and disjunctions in each other's places, and tests of the same kinds with the same calls
    and constants. Its own complement is the condition, so after any number of complements it depends on
    that number's parity which of the two is there. Compiled conditions have no negation nodes. The
    complement of any condition has no more negation nodes than the condition, and is no higher. -/
theorem negate_restores (c : Condition α) :
    (∀ (registry : Registry α) (query : String), registry.compile query = .ok c → c.nots = 0) ∧
    (c.nots = 0 →
      c.negate.nots = 0 ∧ Formula.Mirrors Test.SameSubject c c.negate ∧ c.negate.negate = c ∧
        ∀ n, negate^[n] c = if Even n then c else c.negate) ∧
    c.negate.nots ≤ c.nots ∧ c.negate.height ≤ c.height := by
  have fewer : c.negate.nots ≤ c.nots := Formula.nots_negate_le Test.negate c
  refine ⟨?_, ?_, fewer, Formula.height_negate_le Test.negate c⟩
  · intro registry query compiled
    obtain ⟨w, u, _, _, rfl⟩ := (registry.compile_eq_ok_iff_derives query c).mp compiled
    exact Formula.nots_settle _ false u
  · intro free
    have back : c.negate.negate = c := Formula.negate_negate_of_nots Test.negate_negate c free
    refine ⟨?_, Formula.mirrors_negate Test.sameSubject_negate c free, back, iterate_of_return back⟩
    exact Nat.eq_zero_of_le_zero (free ▸ fewer)

/-- A negation node does not come back. -/
example (t : Test α) : (Condition.negate (.not (.test t))).negate = .test t.negate :=
  rfl

/-- Alternatives of a negated list and a conjunction, complemented five times. -/
theorem negate_restores_alternatives :
    let registry : Registry Bool := { integerFallback := some true }
    let query := "not a(1) in (2, 3) or (b(4) < 5 and not d(6))"
    let c : Condition Bool := .any [
      .test (.member ⟨"a", .integer 1, true, false⟩ (.integers [2, 3]) true),
      .all [
        .test (.compare ⟨"b", .integer 4, true, false⟩ .less (.integer 5)),
        .test (.call ⟨"d", .integer 6, true, true⟩)]]
    registry.compile query = .ok c ∧ c.nots = 0 ∧ Formula.Mirrors Test.SameSubject c c.negate ∧
      c.negate.negate = c ∧ negate^[5] c = c.negate := by
  intro registry query c
  have compiled : registry.compile query = .ok c := by cbv
  have free : c.nots = 0 := (negate_restores c).1 registry query compiled
  obtain ⟨_, mirrors, back, times⟩ := (negate_restores c).2.1 free
  exact ⟨compiled, free, mirrors, back, times 5⟩

end Condition

end RecordQuery
