import RecordQuery.Evaluation
import RecordQuery.Proofs.Compile.Traversal

/-!
# Properties of evaluations

What holds of the parts of an evaluation and is kept by running one part after another holds of the
whole. A test consists of invocations, of what is kept of their answers and of errors (`Parallel.check`),
a formula of its tests (`Tracks.holds`), a condition of both (`Parallel.isTrue`). This is said of two
evaluations on different hosts, and so of one (`Compositional.isTrue`).
-/

namespace RecordQuery

namespace Tracks

variable {τ : Type} {m n : Type → Type} [Monad m] [Monad n] {R : ∀ β : Type, m β → n β → Prop}
  {f : τ → m Bool} {g : τ → n Bool}

mutual

/-- Trials of a formula are related if those of its tests are. -/
theorem holds (h : Tracks m n R) :
    ∀ k : Formula τ, (∀ t ∈ k.tests, R Bool (f t) (g t)) → R Bool (k.holds f) (k.holds g)
  | .all ks, tests => allHold h ks tests
  | .any ks, tests => anyHolds h ks tests
  | .not k, tests => h.bind (holds h k tests) fun _ => h.pure _
  | .test t, tests => tests t (List.mem_singleton_self t)

theorem allHold (h : Tracks m n R) :
    ∀ ks : List (Formula τ), (∀ t ∈ Formula.testsAll ks, R Bool (f t) (g t)) →
      R Bool (Formula.allHold f ks) (Formula.allHold g ks)
  | [], _ => h.pure true
  | k :: ks, tests => by
    obtain ⟨first, others⟩ := List.forall_mem_append.mp tests
    refine h.bind (holds h k first) fun b => ?_
    cases b with
    | true => exact allHold h ks others
    | false => exact h.pure false

theorem anyHolds (h : Tracks m n R) :
    ∀ ks : List (Formula τ), (∀ t ∈ Formula.testsAll ks, R Bool (f t) (g t)) →
      R Bool (Formula.anyHolds f ks) (Formula.anyHolds g ks)
  | [], _ => h.pure false
  | k :: ks, tests => by
    obtain ⟨first, others⟩ := List.forall_mem_append.mp tests
    refine h.bind (holds h k first) fun b => ?_
    cases b with
    | true => exact h.pure true
    | false => exact anyHolds h ks others

end

end Tracks

namespace Evaluation

variable {α ρ σ κ ε : Type}

/-- A relation between the computations of two hosts that holds of those that invoke nothing, and is kept
    by running one computation after another. -/
structure Parallel (R : ∀ β : Type, Evaluation ρ σ ε β → Evaluation ρ κ ε β → Prop) : Prop extends
    Tracks (Evaluation ρ σ ε) (Evaluation ρ κ ε) R where
  throw {β : Type} (fault : EvalFault ε) : R β (throw fault) (throw fault)
  keepAnswer (v : Value) : R Unit (keepAnswer v) (keepAnswer v)

namespace Parallel

variable {R : ∀ β : Type, Evaluation ρ σ ε β → Evaluation ρ κ ε β → Prop} {host : Host α ρ σ ε}
  {host' : Host α ρ κ ε}

theorem asType (h : Parallel R) (needed : LiteralType) (v : Value) :
    R Literal (asType needed v) (asType needed v) := by
  unfold Evaluation.asType
  split
  · exact h.pure _
  · exact h.pure _
  · exact h.throw _
  · exact h.throw _

theorem eval (h : Parallel R) {c : Call α} (invoked : R Value (c.invoke host) (c.invoke host')) :
    R Value (c.eval host) (c.eval host') :=
  h.bind invoked fun v => h.bind (h.keepAnswer v) fun _ => h.pure v

variable (host host')

/-- Tests are related if their invocations are. -/
theorem check (h : Parallel R) {x : Test α}
    (invoked : ∀ c ∈ x.calls, R Value (c.invoke host) (c.invoke host')) :
    R Bool (x.check host) (x.check host') := by
  cases x with
  | call c => exact h.bind (h.eval (invoked c List.mem_cons_self)) fun v => h.pure _
  | compare c r target | member c choices negated =>
    exact h.bind (h.eval (invoked c List.mem_cons_self)) fun v =>
      h.bind (h.asType _ v) fun _ => h.pure _
  | compareCalls left r right =>
    obtain ⟨first, second⟩ := List.forall_mem_cons.mp invoked
    refine h.bind first fun v => h.bind (h.eval (second right List.mem_cons_self)) fun w => ?_
    cases v with
    | integer m => exact h.bind (h.asType _ w) fun _ => h.pure _
    | text t => exact h.bind (h.asType _ w) fun _ => h.pure _
    | _ => exact h.throw _
  | memberCall left right negated =>
    obtain ⟨first, second⟩ := List.forall_mem_cons.mp invoked
    refine h.bind first fun v => h.bind (h.eval (second right List.mem_cons_self)) fun w => ?_
    cases v <;> cases w <;> first | exact h.pure _ | exact h.throw _

/-- Evaluations are related if all invocations are. -/
theorem isTrue (h : Parallel R) (invoked : ∀ c : Call α, R Value (c.invoke host) (c.invoke host'))
    (c : Condition α) : R Bool (c.isTrue host) (c.isTrue host') :=
  h.toTracks.holds c fun _ _ => h.check host host' fun c _ => invoked c

end Parallel

/-- A property of computations that holds of those that invoke nothing, and is kept by running one
    computation after another. -/
structure Compositional (P : ∀ β : Type, Evaluation ρ σ ε β → Prop) : Prop where
  pure {β : Type} (b : β) : P β (pure b)
  throw {β : Type} (fault : EvalFault ε) : P β (throw fault)
  keepAnswer (v : Value) : P Unit (keepAnswer v)
  bind {β γ : Type} {e : Evaluation ρ σ ε β} {f : β → Evaluation ρ σ ε γ} (first : P β e)
    (next : ∀ b, P γ (f b)) : P γ (e >>= f)

namespace Compositional

variable {P : ∀ β : Type, Evaluation ρ σ ε β → Prop} {host : Host α ρ σ ε}

/-- A property is a relation that does not look at the other computation. -/
theorem parallel (h : Compositional P) :
    Parallel (ρ := ρ) (σ := σ) (κ := σ) (ε := ε) fun β e _ => P β e where
  pure := h.pure
  bind := h.bind
  throw := h.throw
  keepAnswer := h.keepAnswer

theorem asType (h : Compositional P) (needed : LiteralType) (v : Value) :
    P Literal (asType needed v) :=
  h.parallel.asType needed v

/-- What holds of the invocations of a test holds of the test. -/
theorem check (h : Compositional P) {x : Test α} (invoked : ∀ c ∈ x.calls, P Value (c.invoke host)) :
    P Bool (x.check host) :=
  h.parallel.check host host invoked

/-- What holds of every invocation holds of every evaluation. -/
theorem isTrue (h : Compositional P) (invoked : ∀ c : Call α, P Value (c.invoke host))
    (c : Condition α) : P Bool (c.isTrue host) :=
  h.parallel.isTrue host host invoked c

end Compositional

end Evaluation

end RecordQuery
