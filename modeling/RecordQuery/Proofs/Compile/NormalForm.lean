import Mathlib
import RecordQuery.Proofs.Compile.RoundTrip
import RecordQuery.Proofs.Condition.Height

/-!
# Compiled conditions are in normal form

What the grammar can write down settles to a condition in normal form, and each open group gives it two
levels at most. So the height of a compiled condition is bounded by the limit on open groups, however
long the query is: `isNormal_of_compile`.
-/

namespace RecordQuery

open Grammar

namespace Formula.IsNormal

variable {τ υ : Type} {p : τ → Prop} {q : υ → Prop}

theorem conjunction {fs : List (Formula τ)} (some : fs ≠ []) (each : ∀ f ∈ fs, f.IsNormal p) :
    (conjunction fs).IsNormal p := by
  match fs with
  | [] => exact absurd rfl some
  | [f] => exact each f List.mem_cons_self
  | f :: g :: fs => exact .all (Nat.le_add_left 2 fs.length) each

theorem disjunction {fs : List (Formula τ)} (some : fs ≠ []) (each : ∀ f ∈ fs, f.IsNormal p) :
    (disjunction fs).IsNormal p := by
  match fs with
  | [] => exact absurd rfl some
  | [f] => exact each f List.mem_cons_self
  | f :: g :: fs => exact .any (Nat.le_add_left 2 fs.length) each

/-- The settled operands of a group without empty groups. -/
theorem settleAll {leaf : Bool → τ → υ} {fs : List (Formula τ)} (some : fs ≠ [])
    (leaves : ∀ t ∈ testsAll fs, ∀ negated, q (leaf negated t))
    (each : ∀ f ∈ fs, (∀ t ∈ f.tests, ∀ negated, q (leaf negated t)) →
      ∀ negated, (f.settle leaf negated).IsNormal q) (negated : Bool) :
    Formula.settleAll leaf negated fs ≠ [] ∧
      ∀ g ∈ Formula.settleAll leaf negated fs, g.IsNormal q := by
  rw [settleAll_eq_map]
  refine ⟨fun none => some (List.map_eq_nil_iff.mp none), fun g member => ?_⟩
  obtain ⟨f, inside, rfl⟩ := List.mem_map.mp member
  refine each f inside (fun t of => leaves t ?_) negated
  rw [testsAll_eq_flatMap]
  exact List.mem_flatMap.mpr ⟨f, inside, of⟩

/-- A formula without empty groups settles to one in normal form, if its leaves do. -/
theorem settle {leaf : Bool → τ → υ} {f : Formula τ} (full : f.Full)
    (leaves : ∀ t ∈ f.tests, ∀ negated, q (leaf negated t)) (negated : Bool) :
    (f.settle leaf negated).IsNormal q := by
  induction full generalizing negated with
  | all some _ each =>
    obtain ⟨some', normal⟩ := settleAll some leaves (fun f member leaves => each f member leaves) negated
    cases negated with
    | true => exact disjunction some' normal
    | false => exact conjunction some' normal
  | any some _ each =>
    obtain ⟨some', normal⟩ := settleAll some leaves (fun f member leaves => each f member leaves) negated
    cases negated with
    | true => exact conjunction some' normal
    | false => exact disjunction some' normal
  | not _ inside => exact inside leaves !negated
  | test t => exact .test (leaves t (List.mem_singleton_self t) negated)

/-- What is done to the operands of a group leaves as many of them. -/
theorem traverseAll {g : τ → Option υ} {fs : List (Formula τ)} {hs : List (Formula υ)}
    (many : 2 ≤ fs.length)
    (each : ∀ f ∈ fs, ∀ h, Formula.traverse g f = some h → h.IsNormal q)
    (done : Formula.traverseAll g fs = some hs) : 2 ≤ hs.length ∧ ∀ h ∈ hs, h.IsNormal q := by
  obtain ⟨count, traversed⟩ := traverseAll_eq_some done
  refine ⟨by rwa [count], fun h member => ?_⟩
  obtain ⟨f, inside, result⟩ := traversed h member
  exact each f inside h result

/-- A traversal keeps the normal form, if it does so at each test. -/
theorem traverse {g : τ → Option υ} {f : Formula τ} (normal : f.IsNormal p)
    (leaves : ∀ t u, p t → g t = some u → q u) {h : Formula υ} (done : f.traverse g = some h) :
    h.IsNormal q := by
  induction normal generalizing h with
  | all many _ each =>
    simp only [Formula.traverse, bind_pure_comp, Option.map_eq_map, Option.map_eq_some_iff] at done
    obtain ⟨hs, operands, rfl⟩ := done
    obtain ⟨many', normal⟩ := traverseAll many (fun f member _ => each f member) operands
    exact .all many' normal
  | any many _ each =>
    simp only [Formula.traverse, bind_pure_comp, Option.map_eq_map, Option.map_eq_some_iff] at done
    obtain ⟨hs, operands, rfl⟩ := done
    obtain ⟨many', normal⟩ := traverseAll many (fun f member _ => each f member) operands
    exact .any many' normal
  | @test t normal =>
    simp only [Formula.traverse, bind_pure_comp, Option.map_eq_map, Option.map_eq_some_iff] at done
    obtain ⟨u, traversed, rfl⟩ := done
    exact .test (leaves t u normal traversed)

end Formula.IsNormal

namespace Test

variable {α β : Type}

/-- Tests that a query can write down: no call in them is inverted, and no list is empty. -/
structure IsWritten (t : Test α) : Prop where
  plain : ∀ c ∈ t.calls, c.IsPlain
  listed : ∀ c choices negated, t = member c choices negated → choices.toList ≠ []

theorem IsNormal.negate {t : Test α} (normal : t.IsNormal) : t.negate.IsNormal := by
  cases t <;> exact normal

/-- A test that is written down is normal once a list of one constant is an equality. -/
theorem IsWritten.unlist {t : Test α} (written : t.IsWritten) : t.unlist.IsNormal := by
  obtain ⟨plain, listed⟩ := written
  cases t with
  | call c => exact (plain c List.mem_cons_self).named
  | compare c r target => exact plain c List.mem_cons_self
  | compareCalls left r right | memberCall left right negated =>
    obtain ⟨plainLeft, plainRight⟩ := List.forall_mem_cons.mp plain
    exact ⟨plainLeft, plainRight right List.mem_cons_self⟩
  | member c choices negated =>
    have isPlain := plain c List.mem_cons_self
    have some := listed c choices negated rfl
    -- lists of none, of one and of more constants, of either type
    rcases choices with (_ | ⟨m, _ | ⟨n, ns⟩⟩) | (_ | ⟨s, _ | ⟨u, us⟩⟩)
    case integers.nil | texts.nil => exact absurd rfl some
    case integers.cons.nil | texts.cons.nil => exact isPlain
    case integers.cons.cons | texts.cons.cons =>
      refine ⟨isPlain, ?_⟩
      simp only [Choices.toList, List.length_map, List.length_cons]
      omega

/-- Putting accessors into a test keeps its normal form. -/
theorem IsNormal.traverse {f : Call α → Option (Call β)}
    (calls : ∀ c d, f c = some d → d.name = c.name ∧ d.negated = c.negated) {t : Test α}
    (normal : t.IsNormal) {u : Test β} (done : t.traverse f = some u) : u.IsNormal := by
  have plain : ∀ c d, c.IsPlain → f c = some d → d.IsPlain := by
    intro c d plain bound
    obtain ⟨name, negated⟩ := calls c d bound
    exact ⟨name ▸ plain.named, negated.trans plain.asserted⟩
  cases t <;>
    simp only [Test.traverse, Option.bind_eq_bind, Option.bind_eq_some_iff, Option.pure_def,
      Option.some.injEq] at done
  case call c =>
    obtain ⟨d, bound, rfl⟩ := done
    show IsName d.name
    rw [(calls c d bound).1]
    exact normal
  case compare c r target =>
    obtain ⟨d, bound, rfl⟩ := done
    exact plain c d normal bound
  case compareCalls left r right =>
    obtain ⟨d, bound, e, bound', rfl⟩ := done
    exact ⟨plain left d normal.1 bound, plain right e normal.2 bound'⟩
  case member c choices negated =>
    obtain ⟨d, bound, rfl⟩ := done
    exact ⟨plain c d normal.1 bound, normal.2⟩
  case memberCall left right negated =>
    obtain ⟨d, bound, e, bound', rfl⟩ := done
    exact ⟨plain left d normal.1 bound, plain right e normal.2 bound'⟩

end Test

namespace Grammar

variable {p : Phrase} {n : Nat} {ts : List Token} {w : Written}

/-- The tokens of a query that are names have the texts of names. -/
theorem isName_of_tokenize (query : String) :
    ∀ t ∈ tokenize query, t.kind = .name → IsName t.text :=
  fun t member => Word.isName_of_isWhole ((scans_tokenize query).isWhole t member)

theorem IsCall.isPlain {c : Call Nat} (call : IsCall ts c)
    (named : ∀ t ∈ ts, t.kind = .name → IsName t.text) : c.IsPlain := by
  cases call with
  | mk isName _ _ _ => exact ⟨named _ List.mem_cons_self isName, rfl⟩

theorem IsComparison.isWritten {t : Test Nat} (test : IsComparison ts t)
    (named : ∀ t ∈ ts, t.kind = .name → IsName t.text) : t.IsWritten := by
  cases test with
  | call left => exact ⟨List.forall_mem_singleton.mpr (left.isPlain named), by rintro _ _ _ ⟨⟩⟩
  | compare left _ _ =>
    have before := (List.forall_mem_append.mp named).1
    exact ⟨List.forall_mem_singleton.mpr (left.isPlain before), by rintro _ _ _ ⟨⟩⟩
  | compareCalls left _ right | memberCall left _ right =>
    obtain ⟨before, after⟩ := List.forall_mem_append.mp named
    have after := (List.forall_mem_cons.mp after).2
    refine ⟨List.forall_mem_cons.mpr ⟨left.isPlain before, ?_⟩, by rintro _ _ _ ⟨⟩⟩
    exact List.forall_mem_singleton.mpr (right.isPlain after)
  | member left _ _ list _ =>
    have before := (List.forall_mem_append.mp (List.forall_mem_append.mp named).1).1
    refine ⟨List.forall_mem_singleton.mpr (left.isPlain before), ?_⟩
    rintro _ _ _ ⟨⟩ none
    obtain ⟨_, _, listed⟩ := list.exists_cons
    rw [none] at listed
    cases listed

/-- The tests of a syntax tree are tests that can be written down. -/
theorem Derives.isWritten (derived : Derives p n ts w)
    (named : ∀ t ∈ ts, t.kind = .name → IsName t.text) : ∀ t ∈ w.tests, t.IsWritten := by
  induction derived with
  | comparison test => exact List.forall_mem_singleton.mpr (test.isWritten named)
  | negation _ _ operand => exact operand (List.forall_mem_cons.mp named).2
  | group _ _ _ inside =>
    exact inside (List.forall_mem_cons.mp (List.forall_mem_append.mp named).1).2
  | item _ first | condition _ first =>
    simpa only [Formula.tests, Formula.testsAll, List.append_nil] using first named
  | and _ _ _ before last | or _ _ _ before last =>
    obtain ⟨namedBefore, namedLast⟩ := List.forall_mem_append.mp named
    have before := before namedBefore
    have last := last (List.forall_mem_cons.mp namedLast).2
    simp only [Formula.tests, Formula.testsAll_eq_flatMap, List.flatMap_append, List.flatMap_cons,
      List.flatMap_nil, List.append_nil, List.forall_mem_append] at before ⊢
    exact ⟨before, last⟩

/-- How many levels a phrase has besides those of the groups in it. -/
def Phrase.levels : Phrase → Nat
  | .atom => 1
  | .item => 2
  | .condition => 3

/-- Each open group adds two levels at most: one of alternatives, and one of the conjunction that one
    of them is. -/
theorem Derives.levels_le (derived : Derives p n ts w) : w.levels ≤ 2 * n + p.levels := by
  induction derived with
  | comparison _ =>
    simp only [Formula.levels, Phrase.levels]
    omega
  | negation _ _ operand => exact operand
  | group _ _ _ inside =>
    simp only [Phrase.levels] at inside ⊢
    omega
  | item _ first | condition _ first =>
    simp only [Formula.levels, Formula.levelsAll, Phrase.levels] at first ⊢
    omega
  | and _ _ _ before last | or _ _ _ before last =>
    simp only [Formula.levels, Formula.levelsAll, Formula.levelsAll_append, Phrase.levels] at before last ⊢
    omega

end Grammar

namespace Registry

variable {α : Type}

theorem boundCall?_eq_some {registry : Registry α} {c : Call Nat} {d : Call α}
    (bound : registry.boundCall? c = some d) : d.name = c.name ∧ d.negated = c.negated := by
  obtain ⟨_, _, rfl⟩ := Option.map_eq_some_iff.mp bound
  exact ⟨rfl, rfl⟩

/-- What a query's syntax tree comes to is in normal form. -/
theorem Yields.isNormal {registry : Registry α} {query : String} {n : Nat} {w : Written}
    {c : Condition α} (yields : registry.Yields w c)
    (derived : Derives .condition n (tokenize query) w) : c.IsNormal := by
  have normal : w.simplify.IsNormal := by
    refine Formula.IsNormal.settle derived.full (fun t member negated => ?_) false
    have written := derived.isWritten (isName_of_tokenize query) t member
    cases negated with
    | true => exact written.unlist.negate
    | false => exact written.unlist
  exact normal.traverse (fun t u normal => normal.traverse fun _ _ => boundCall?_eq_some) yields

/-- A compiled condition is in normal form: it has no negations but those inside the tests, its groups
    have two operands and its lists two constants at least, and no call is inverted but where it is a
    test of its own. On no path from its root to a leaf does it have more nodes than two for each group
    that may be open, two for the query itself, and one for the test at the end. -/
theorem isNormal_of_compile (registry : Registry α) (query : String) (c : Condition α)
    (compiled : registry.compile query = .ok c) :
    c.IsNormal ∧ c.height ≤ 2 * (maxNesting + 1) + 1 := by
  obtain ⟨w, u, derived, bound, simplified⟩ := (registry.compile_eq_ok_iff_derives query c).mp compiled
  have traversed : Formula.traverse (Test.traverse registry.boundCall?) w.simplify = some c := by
    rw [Condition.traverse_simplify registry.boundCall?_negate, ← simplified]
    exact congrArg (Option.map Condition.simplify) bound
  constructor
  · exact Yields.isNormal traversed derived
  · rw [Formula.height_traverse _ traversed]
    exact Nat.le_trans (Formula.height_settle_le _ false w) derived.levels_le

/-- A negated conjunction of a list of one constant and a group of which one side is negated. -/
theorem isNormal_negated_groups :
    let registry : Registry Bool := { integerFallback := some true, textFallback := some false }
    let query := "not(a(1)in(2)and(b('x')in('y','z')or not c(3)<d(4)))"
    let c : Condition Bool := .any [
      .test (.compare ⟨"a", .integer 1, true, false⟩ .unequal (.integer 2)),
      .all [
        .test (.member ⟨"b", .text "x", false, false⟩ (.texts ["y", "z"]) true),
        .test (.compareCalls ⟨"c", .integer 3, true, false⟩ .less ⟨"d", .integer 4, true, false⟩)]]
    registry.compile query = .ok c ∧ c.IsNormal ∧ c.height ≤ 131 := by
  intro registry query c
  have compiled : registry.compile query = .ok c := by cbv
  exact ⟨compiled, registry.isNormal_of_compile query c compiled⟩

end Registry

end RecordQuery
