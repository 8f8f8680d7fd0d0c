import Mathlib.Data.List.Perm.Basic
import Mathlib.Tactic.Choose
import RecordQuery.Proofs.Evaluation.Steady

/-!
# The order of operands

Operands of a conjunction or a disjunction are tried in turn, so their order decides which tests are
tried and whether one that fails is among them. It does not decide the answer: whatever the failing tests
would have answered, an answer is the truth value of the whole formula, which no order changes. The main
statement is `Condition.answers_reordered`.
-/

namespace RecordQuery

namespace Formula

variable {τ ε : Type}

/-- The truth value of a formula, given those of its tests. -/
def truth (a : τ → Bool) (f : Formula τ) : Bool :=
  Id.run (f.holds fun t => pure (a t))

/-- `Reordered f g`: the operands of some groups of `f`, at any depth, stand in another order in `g`. -/
inductive Reordered : Formula τ → Formula τ → Prop
  | refl (f : Formula τ) : Reordered f f
  | trans {f g h : Formula τ} (first : Reordered f g) (second : Reordered g h) : Reordered f h
  | all {fs gs : List (Formula τ)} (perm : fs.Perm gs) : Reordered (all fs) (all gs)
  | any {fs gs : List (Formula τ)} (perm : fs.Perm gs) : Reordered (any fs) (any gs)
  | allInside {f g : Formula τ} (fs gs : List (Formula τ)) (inside : Reordered f g) :
      Reordered (.all (fs ++ f :: gs)) (.all (fs ++ g :: gs))
  | anyInside {f g : Formula τ} (fs gs : List (Formula τ)) (inside : Reordered f g) :
      Reordered (.any (fs ++ f :: gs)) (.any (fs ++ g :: gs))
  | notInside {f g : Formula τ} (inside : Reordered f g) : Reordered (.not f) (.not g)

theorem truth_all (a : τ → Bool) (fs : List (Formula τ)) : truth a (all fs) = fs.all (truth a) := by
  induction fs with
  | nil => rfl
  | cons f fs ih =>
    have operands : truth a (.all (f :: fs)) = if truth a f then truth a (.all fs) else false := rfl
    rw [operands, ih, List.all_cons]
    cases truth a f <;> rfl

theorem truth_any (a : τ → Bool) (fs : List (Formula τ)) : truth a (any fs) = fs.any (truth a) := by
  induction fs with
  | nil => rfl
  | cons f fs ih =>
    have operands : truth a (.any (f :: fs)) = if truth a f then true else truth a (.any fs) := rfl
    rw [operands, ih, List.any_cons]
    cases truth a f <;> rfl

theorem truth_not (a : τ → Bool) (f : Formula τ) : truth a (not f) = !truth a f := rfl

namespace Reordered

variable {f g : Formula τ}

/-- The order of operands does not change a truth value. -/
theorem truth_eq (h : Reordered f g) (a : τ → Bool) : truth a f = truth a g := by
  induction h with
  | refl f => rfl
  | trans _ _ first second => rw [first, second]
  | all perm =>
    rw [truth_all, truth_all, Bool.eq_iff_iff, List.all_eq_true, List.all_eq_true]
    simp only [perm.mem_iff]
  | any perm =>
    rw [truth_any, truth_any, Bool.eq_iff_iff, List.any_eq_true, List.any_eq_true]
    simp only [perm.mem_iff]
  | allInside fs gs _ ih =>
    rw [truth_all, truth_all, List.all_append, List.all_append, List.all_cons, List.all_cons, ih]
  | anyInside fs gs _ ih =>
    rw [truth_any, truth_any, List.any_append, List.any_append, List.any_cons, List.any_cons, ih]
  | notInside _ ih => rw [truth_not, truth_not, ih]

/-- The same tests stand in the formula, in another order. -/
theorem tests_perm (h : Reordered f g) : f.tests.Perm g.tests := by
  induction h with
  | refl f => exact List.Perm.refl _
  | trans _ _ first second => exact first.trans second
  | all perm | any perm =>
    simp only [tests, testsAll_eq_flatMap]
    exact perm.flatMap_right _
  | allInside fs gs _ ih | anyInside fs gs _ ih =>
    simp only [tests, testsAll_eq_flatMap, List.flatMap_append, List.flatMap_cons]
    exact List.Perm.append_left _ (List.Perm.append_right _ ih)
  | notInside _ ih => exact ih

end Reordered

/-- Where a computation that may fail succeeds, it comes to the same as one that cannot. -/
theorem tracks_ok : Tracks (Except ε) Id fun _ x y => ∀ b, x = .ok b → y = b := by
  constructor
  · intro β b c same
    cases same
    rfl
  · intro β γ x y f g first next c run
    cases x with
    | error e => cases run
    | ok b =>
      obtain rfl := first b rfl
      exact next y c run

/-- Where a computation comes to the same as one that cannot fail, it succeeds. -/
theorem tracks_total : Tracks (Except ε) Id fun _ x y => x = .ok y := by
  constructor
  · intro β b
    rfl
  · intro β γ x y f g first next
    subst first
    exact next y

variable {f g : Formula τ} {outcome : τ → Except ε Bool}

/-- An answer is the truth value of the formula, whatever the tests would answer that have failed. -/
theorem truth_of_holds {b : Bool} (answer : f.holds outcome = .ok b) {a : τ → Bool}
    (agrees : ∀ t ∈ f.tests, ∀ c, outcome t = .ok c → a t = c) : truth a f = b :=
  tracks_ok.holds f agrees b answer

/-- A formula whose tests do not fail has an answer. -/
theorem holds_of_truth {a : τ → Bool} (agrees : ∀ t ∈ f.tests, outcome t = .ok (a t)) :
    f.holds outcome = .ok (truth a f) :=
  tracks_total.holds f agrees

/-- The answers of tests, and `false` for tests that fail. -/
def answerOf (outcome : τ → Except ε Bool) (t : τ) : Bool :=
  match outcome t with
  | .ok b => b
  | .error _ => false

theorem answerOf_eq {t : τ} {b : Bool} (answer : outcome t = .ok b) : answerOf outcome t = b := by
  rw [answerOf, answer]

namespace Reordered

/-- The order of operands may hide or expose a failing test, but it does not change an answer. -/
theorem holds_eq (h : Reordered f g) {b c : Bool} (answer : f.holds outcome = .ok b)
    (answer' : g.holds outcome = .ok c) : b = c := by
  have first := truth_of_holds answer fun t _ _ => answerOf_eq
  have second := truth_of_holds answer' fun t _ _ => answerOf_eq
  rw [← first, ← second, h.truth_eq]

/-- If no test fails there is an answer in any order. -/
theorem exists_holds (h : Reordered f g) (succeeds : ∀ t ∈ f.tests, ∃ b, outcome t = .ok b) :
    (∃ b, f.holds outcome = .ok b) ∧ ∃ b, g.holds outcome = .ok b := by
  have agrees : ∀ t ∈ f.tests, outcome t = .ok (answerOf outcome t) := by
    intro t member
    obtain ⟨b, answer⟩ := succeeds t member
    rw [answerOf_eq answer, answer]
  exact ⟨⟨_, holds_of_truth agrees⟩, _, holds_of_truth fun t member => agrees t (h.tests_perm.mem_iff.mpr member)⟩

end Reordered

end Formula

namespace Condition

variable {α ρ σ ε : Type}

open Evaluation

/-- A condition and another order of its operands, on a record on which its calls are steady: if both
    evaluations come to an answer it is the same one, whatever was evaluated before each of them, and if
    no test fails when it is tried by itself both come to an answer. -/
theorem answers_reordered (host : Host α ρ σ ε) (record : ρ) (c d : Condition α)
    (reordered : Formula.Reordered c d) (steady : ∀ x ∈ c.calls, x.Steady host record) :
    (∀ s s' last last' b b', s.context.record = record → s'.context.record = record →
      c.isTrue host s = .ok b last → d.isTrue host s' = .ok b' last' → b = b') ∧
    ((∀ x ∈ c.tests, ∃ s b last, s.context.record = record ∧ x.check host s = .ok b last) →
      ∀ s, s.context.record = record →
        (∃ b last, c.isTrue host s = .ok b last) ∧ ∃ b last, d.isTrue host s = .ok b last) := by
  have settled : ∀ x, ∃ o, x ∈ c.tests → ComesTo record (x.check host) o := by
    intro x
    by_cases member : x ∈ c.tests
    · have calls : ∀ call ∈ x.calls, call.Steady host record := fun call inside =>
        steady call (List.mem_flatMap.mpr ⟨x, member, inside⟩)
      obtain ⟨o, comes⟩ := Test.settled_check calls
      exact ⟨o, fun _ => comes⟩
    · exact ⟨.ok true, fun inside => absurd inside member⟩
  choose outcome comes using settled
  have first : ComesTo record (c.isTrue host) (c.holds outcome) := comesTo_isTrue comes
  have second : ComesTo record (d.isTrue host) (d.holds outcome) :=
    comesTo_isTrue fun x member => comes x (reordered.tests_perm.mem_iff.mpr member)
  constructor
  · intro s s' last last' b b' here here' answer answer'
    exact reordered.holds_eq (first.eq_of_ok here answer) (second.eq_of_ok here' answer')
  · intro alone s here
    have succeeds : ∀ x ∈ c.tests, ∃ b, outcome x = .ok b := by
      intro x member
      obtain ⟨s, b, last, here, answer⟩ := alone x member
      exact ⟨b, (comes x member).eq_of_ok here answer⟩
    obtain ⟨⟨b, answer⟩, b', answer'⟩ := reordered.exists_holds succeeds
    rw [answer] at first
    rw [answer'] at second
    obtain ⟨last, _, run⟩ := first s here
    obtain ⟨last', _, run'⟩ := second s here
    exact ⟨⟨b, last, run⟩, b', last', run'⟩

/-- A test that would fail is skipped in either order. -/
theorem answers_reordered_skipped :
    let host : Host (Except String Value) Unit Nat String :=
      ⟨fun accessor _ _ _ n => (accessor, n + 1)⟩
    let x : Condition (Except String Value) :=
      .test (.call ⟨"a", .integer 1, .ok (.boolean true), false⟩)
    let y : Condition (Except String Value) := .test (.call ⟨"b", .integer 2, .error "down", false⟩)
    let z : Condition (Except String Value) := .test (.call ⟨"c", .text "", .ok (.integer 0), true⟩)
    let c : Condition (Except String Value) := .not (.all [.any [x, y], z])
    let d : Condition (Except String Value) := .not (.all [z, .any [x, y]])
    let s : EvalState Unit Nat := ⟨⟨(), none⟩, 0⟩
    Formula.Reordered c d ∧ (∀ call ∈ c.calls, call.Steady host ()) ∧
      c.isTrue host s = .ok false ⟨⟨(), some (.integer 0)⟩, 2⟩ ∧
      d.isTrue host s = .ok false ⟨⟨(), some (.boolean true)⟩, 2⟩ ∧
      (∀ b last, d.isTrue host s = .ok b last → b = false) ∧
      ∃ b last, Condition.isTrue host (.all [z, x]) s = .ok b last := by
  intro host x y z c d s
  have steady : ∀ (e : Condition (Except String Value)), ∀ call ∈ e.calls, call.Steady host () := by
    intro e call _ state state'
    rfl
  have reordered : Formula.Reordered c d := .notInside (.all (.swap _ _ _))
  have answer : c.isTrue host s = .ok false ⟨⟨(), some (.integer 0)⟩, 2⟩ := rfl
  have same := (answers_reordered host () c d reordered (steady c)).1
  have alone : ∀ t ∈ Formula.tests (.all [x, z]), ∃ s b last, s.context.record = () ∧
      Test.check host t s = .ok b last := by
    intro t member
    refine ⟨s, true, ?_⟩
    rcases List.mem_cons.mp member with rfl | member
    · exact ⟨_, rfl, rfl⟩
    · rw [List.mem_singleton.mp member]
      exact ⟨_, rfl, rfl⟩
  have both := (answers_reordered host () (.all [x, z]) (.all [z, x]) (.all (.swap _ _ _)) (steady _)).2
  refine ⟨reordered, steady c, answer, rfl, ?_, (both alone s rfl).2⟩
  intro b last answer'
  exact (same s s _ _ _ _ rfl rfl answer answer').symm

end Condition

end RecordQuery
