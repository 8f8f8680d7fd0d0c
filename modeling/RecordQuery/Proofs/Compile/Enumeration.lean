import Mathlib
import RecordQuery.Proofs.Compile.Acceptance
import RecordQuery.Proofs.Condition.Bare
import RecordQuery.Proofs.Evaluation.Enumeration

/-!
# Constants as a list and as a chain

That the answer of a call is one of some constants can be written with a list, `c in (l, m)`, or with a
chain of comparisons, `c = l or c = m`; that it is none of them with `not c in (l, m)` or with
`c <> l and c <> m`. If the call is steady, neither the form matters nor the order in which the constants
stand, nor how often each does: `enumerations_agree`.
-/

namespace RecordQuery

open Formula Evaluation

/-- The call with an accessor. -/
def Call.withAccessor {α : Type} (c : Call Unit) (accessor : α) : Call α :=
  { c with accessor }

namespace Grammar

/-- Comparisons of one call with some constants, one after another, with a keyword between them. -/
inductive IsChain (call : Call Unit) (r : Relation) (k : Keyword) : List Token → List Literal → Prop
  | link {ts : List Token} {c : Call Nat} {l : Literal} (comparison : IsComparison ts (.compare c r l))
      (same : c.bare = call) : IsChain call r k ts [l]
  | join {ts us : List Token} {t : Token} {c : Call Nat} {ls : List Literal} {l : Literal}
      (before : IsChain call r k ts ls) (joined : t.kind = .keyword k)
      (comparison : IsComparison us (.compare c r l)) (same : c.bare = call) :
      IsChain call r k (ts ++ t :: us) (ls ++ [l])

/-- The forms in which it can be written that a call answers with one of some constants, or with none of
    them if negated. -/
inductive IsEnumeration (call : Call Unit) (choices : Choices) : Bool → List Token → Prop
  | list {ts : List Token} {c : Call Nat} (comparison : IsComparison ts (.member c choices false))
      (same : c.bare = call) : IsEnumeration call choices false ts
  | negatedList {t : Token} {ts : List Token} {c : Call Nat} (negated : t.kind = .keyword .not)
      (comparison : IsComparison ts (.member c choices false)) (same : c.bare = call) :
      IsEnumeration call choices true (t :: ts)
  | equalities {ts : List Token} (chain : IsChain call .equal .or ts choices.toList) :
      IsEnumeration call choices false ts
  | inequalities {ts : List Token} (chain : IsChain call .unequal .and ts choices.toList) :
      IsEnumeration call choices true ts

variable {call : Call Unit} {r : Relation} {k : Keyword} {ts : List Token} {ls : List Literal}
  {choices : Choices} {negated : Bool}

theorem IsChain.ne_nil (chain : IsChain call r k ts ls) : ls ≠ [] := by
  cases chain with
  | link => exact List.cons_ne_nil _ _
  | join => exact List.append_ne_nil_of_right_ne_nil _ (List.cons_ne_nil _ _)

theorem IsEnumeration.ne_nil (form : IsEnumeration call choices negated ts) : choices.toList ≠ [] := by
  cases form with
  | list comparison | negatedList _ comparison =>
    cases comparison with
    | member _ _ _ list =>
      obtain ⟨m, ms, cons⟩ := list.exists_cons
      rw [cons]
      exact List.cons_ne_nil m ms
  | equalities chain | inequalities chain => exact chain.ne_nil

end Grammar

open Grammar

namespace Registry

variable {α : Type} {registry : Registry α} {call : Call Unit} {resolution : Resolution α}
  {r : Relation} {ts : List Token} {ls : List Literal} {choices : Choices} {negated : Bool}

section Trees

variable (resolved : registry.resolve call.argument.type call.name = some resolution)
include resolved

theorem boundCall?_eq {c : Call Nat} (same : c.bare = call) :
    registry.boundCall? c = some (call.withAccessor resolution.accessor) := by
  subst same
  exact congrArg (Option.map _) resolved

/-- Comparisons with "or" between them are alternatives. -/
theorem exists_any_of_isChain (chain : IsChain call r .or ts ls) (n : Nat) :
    ∃ ws, Derives .condition n ts (.any ws) ∧
      traverseAll (Test.traverse registry.boundCall?) ws = some (ls.map fun l =>
        .all [.test (.compare (call.withAccessor resolution.accessor) r l)]) := by
  induction chain with
  | link comparison same =>
    refine ⟨_, .condition (.item (.comparison comparison)), ?_⟩
    simp only [traverseAll, Formula.traverse, Test.traverse, boundCall?_eq resolved same]
    rfl
  | join before joined comparison same ih =>
    obtain ⟨ws, derived, bound⟩ := ih
    refine ⟨_, .or derived joined (.item (.comparison comparison)), ?_⟩
    rw [traverseAll_append, bound, List.map_append]
    simp only [traverseAll, Formula.traverse, Test.traverse, boundCall?_eq resolved same]
    rfl

/-- Comparisons with "and" between them are one item. -/
theorem exists_all_of_isChain (chain : IsChain call r .and ts ls) (n : Nat) :
    ∃ ws, Derives .item n ts (.all ws) ∧
      traverseAll (Test.traverse registry.boundCall?) ws = some (ls.map fun l =>
        .test (.compare (call.withAccessor resolution.accessor) r l)) := by
  induction chain with
  | link comparison same =>
    refine ⟨_, .item (.comparison comparison), ?_⟩
    simp only [traverseAll, Formula.traverse, Test.traverse, boundCall?_eq resolved same]
    rfl
  | join before joined comparison same ih =>
    obtain ⟨ws, derived, bound⟩ := ih
    refine ⟨_, .and derived joined (.comparison comparison), ?_⟩
    rw [traverseAll_append, bound, List.map_append]
    simp only [traverseAll, Formula.traverse, Test.traverse, boundCall?_eq resolved same]
    rfl

end Trees

/-- Each form has a syntax tree that shows what the membership does. -/
theorem exists_tree_of_isEnumeration
    (resolved : registry.resolve call.argument.type call.name = some resolution)
    (form : IsEnumeration call choices negated ts) (n : Nat) :
    ∃ w u, Derives .condition n ts w ∧ registry.boundTree? w = some u ∧
      ∀ {ρ σ ε : Type} (host : Host α ρ σ ε) (s : EvalState ρ σ),
        (call.withAccessor resolution.accessor).Steady host s.context.record →
          (u.isTrue host).view s =
            ((Test.member (call.withAccessor resolution.accessor) choices negated).check host).view s := by
  have constants := form.ne_nil
  cases form with
  | list comparison same =>
    refine ⟨_, .any [.all [.test (.member (call.withAccessor resolution.accessor) choices false)]],
      .condition (.item (.comparison comparison)), ?_, fun host s _ => ?_⟩
    · simp only [boundTree?, traverseAll, Formula.traverse, Test.traverse, boundCall?_eq resolved same]
      rfl
    · rw [Condition.isTrue_atom]
      rfl
  | negatedList negated comparison same =>
    refine ⟨_, .any [.all [.not (.test (.member (call.withAccessor resolution.accessor) choices false))]],
      .condition (.item (.negation negated (.comparison comparison))), ?_, fun host s _ => ?_⟩
    · simp only [boundTree?, traverseAll, Formula.traverse, Test.traverse, boundCall?_eq resolved same]
      rfl
    · rw [Condition.isTrue_atom, Condition.isTrue_not, Condition.isTrue, holds, ← Test.check_negate]
      rfl
  | equalities chain =>
    obtain ⟨ws, derived, bound⟩ := exists_any_of_isChain resolved chain n
    refine ⟨_, .any (choices.toList.map fun l =>
      .all [.test (.compare (call.withAccessor resolution.accessor) .equal l)]), derived, ?_,
      fun host s steady => ?_⟩
    · simp only [boundTree?, Formula.traverse, bound]
      rfl
    · exact view_enumeration false (fun l => groupHolds_singleton (Test.check host) true _) constants
        (steady.answers s.host) rfl
  | inequalities chain =>
    obtain ⟨ws, derived, bound⟩ := exists_all_of_isChain resolved chain n
    refine ⟨_, .any [.all (choices.toList.map fun l =>
      .test (.compare (call.withAccessor resolution.accessor) .unequal l))], .condition derived, ?_,
      fun host s steady => ?_⟩
    · simp only [boundTree?, traverseAll, Formula.traverse, bound]
      rfl
    · -- a conjunction by itself is the only alternative
      have item := groupHolds_singleton (Test.check host) false (.all (choices.toList.map fun l =>
        .test (.compare (call.withAccessor resolution.accessor) .unequal l)))
      refine (congrArg (Evaluation.view · s) item).trans ?_
      exact view_enumeration (f := fun l =>
        .test (.compare (call.withAccessor resolution.accessor) .unequal l)) true (fun _ => rfl) constants
          (steady.answers s.host) rfl

/-- Queries that say of the answer of one call that it is one of some constants, or that it is none of
    them, in whatever form: a list, or a chain of comparisons. If the constants are the same but for their
    order and for repetitions, and the call has an accessor, both queries are compiled. If the accessor
    looks at its argument and the record only, the conditions give the same answer or the same error for
    the record, and keep the same latest answer. -/
theorem enumerations_agree (registry : Registry α) (call : Call Unit) (resolution : Resolution α)
    (choices choices' : Choices) (negated : Bool) (query query' : String)
    (resolved : registry.resolve call.argument.type call.name = some resolution)
    (members : ∀ l, l ∈ choices.toList ↔ l ∈ choices'.toList)
    (form : IsEnumeration call choices negated (tokenize query))
    (form' : IsEnumeration call choices' negated (tokenize query')) :
    ∃ c c', registry.compile query = .ok c ∧ registry.compile query' = .ok c' ∧
      ∀ {ρ σ ε : Type} (host : Host α ρ σ ε) (context : Context ρ),
        (call.withAccessor resolution.accessor).Steady host context.record →
          ∀ state, (c.isTrue host).view ⟨context, state⟩ = (c'.isTrue host).view ⟨context, state⟩ := by
  obtain ⟨w, u, derived, bound, shows⟩ := exists_tree_of_isEnumeration resolved form maxNesting
  obtain ⟨w', u', derived', bound', shows'⟩ := exists_tree_of_isEnumeration resolved form' maxNesting
  refine ⟨u.simplify, u'.simplify,
    (registry.compile_eq_ok_iff_derives query _).mpr ⟨w, u, derived, bound, rfl⟩,
    (registry.compile_eq_ok_iff_derives query' _).mpr ⟨w', u', derived', bound', rfl⟩, ?_⟩
  intro ρ σ ε host context steady state
  rw [Condition.isTrue_simplify, Condition.isTrue_simplify, shows host ⟨context, state⟩ steady,
    shows' host ⟨context, state⟩ steady, Test.check_member_congr form.ne_nil members]

/-- A list of one constant, and a chain in which it stands twice. -/
theorem enumerations_agree_one_constant :
    let registry : Registry Value := { textFallback := some (.integer 1) }
    let host : Host Value Unit Nat String := ⟨fun answer _ _ _ n => (.ok answer, n + 1)⟩
    let f : Call Unit := ⟨"f", .text "x", (), false⟩
    IsEnumeration f (.integers [1]) true (tokenize "not f('x') in (1)") ∧
      IsEnumeration f (.integers [1, 1]) true (tokenize "f('x') <> 1 and f('x') <> 1") ∧
      ∃ c c', registry.compile "not f('x') in (1)" = .ok c ∧
        registry.compile "f('x') <> 1 and f('x') <> 1" = .ok c' ∧
        (c.isTrue host).view ⟨⟨(), none⟩, 0⟩ = (c'.isTrue host).view ⟨⟨(), none⟩, 0⟩ := by
  intro registry host f
  have one (n : Nat) : IsLiteral ⟨.integer, "1", n⟩ (.integer 1) := isLiteral_iff.mpr (by cbv)
  have left (n : Nat) : IsCall
      [⟨.name, "f", n⟩, ⟨.openParen, "(", n + 1⟩, ⟨.text, "'x'", n + 2⟩, ⟨.closeParen, ")", n + 5⟩]
      ⟨"f", .text "x", n, false⟩ :=
    .mk rfl rfl (isLiteral_iff.mpr (by cbv)) rfl
  have list : IsEnumeration f (.integers [1]) true (tokenize "not f('x') in (1)") := by
    have tokens : tokenize "not f('x') in (1)" = ⟨.keyword .not, "not", 0⟩ ::
        ([⟨.name, "f", 4⟩, ⟨.openParen, "(", 5⟩, ⟨.text, "'x'", 6⟩, ⟨.closeParen, ")", 9⟩] ++
          ⟨.keyword .within, "in", 11⟩ :: ⟨.openParen, "(", 14⟩ :: [⟨.integer, "1", 15⟩] ++
            [⟨.closeParen, ")", 16⟩]) := by cbv
    rw [tokens]
    exact .negatedList rfl (.member (left 4) rfl rfl (.literal (one 15)) rfl) rfl
  have chain : IsEnumeration f (.integers [1, 1]) true (tokenize "f('x') <> 1 and f('x') <> 1") := by
    have comparison (n : Nat) := IsComparison.compare (o := ⟨.relation .unequal, "<>", n + 7⟩) (left n)
      rfl (one (n + 10))
    have tokens : tokenize "f('x') <> 1 and f('x') <> 1" =
        ([⟨.name, "f", 0⟩, ⟨.openParen, "(", 1⟩, ⟨.text, "'x'", 2⟩, ⟨.closeParen, ")", 5⟩] ++
          [⟨.relation .unequal, "<>", 7⟩, ⟨.integer, "1", 10⟩]) ++ ⟨.keyword .and, "and", 12⟩ ::
        ([⟨.name, "f", 16⟩, ⟨.openParen, "(", 17⟩, ⟨.text, "'x'", 18⟩, ⟨.closeParen, ")", 21⟩] ++
          [⟨.relation .unequal, "<>", 23⟩, ⟨.integer, "1", 26⟩]) := by cbv
    rw [tokens]
    exact .inequalities (.join (.link (comparison 0) rfl) rfl (comparison 16) rfl)
  obtain ⟨c, c', compiled, compiled', agree⟩ := registry.enumerations_agree f (.fallback (.integer 1))
    (.integers [1]) (.integers [1, 1]) true _ _ rfl (by simp [Choices.toList]) list chain
  exact ⟨list, chain, c, c', compiled, compiled', agree host ⟨(), none⟩ (fun _ _ => rfl) 0⟩

end Registry

end RecordQuery
