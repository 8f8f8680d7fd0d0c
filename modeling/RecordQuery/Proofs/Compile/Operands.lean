import Mathlib
import RecordQuery.Proofs.Compile.Acceptance
import RecordQuery.Proofs.Compile.Resolution
import RecordQuery.Proofs.Condition.Operands

/-!
# Compiling keeps the operands

The names, integers and texts of a query are the operands of its condition, one for one and in the same
order: `compile_operands`. It is so of every phrase and its syntax tree, and what is done to the tree
afterwards leaves the operands alone.
-/

namespace RecordQuery

/-- Whether the token stands for an operand. -/
def Token.isOperand (t : Token) : Bool :=
  match t.kind with
  | .name | .integer | .text => true
  | _ => false

namespace Grammar

/-- A token stands for an operand: a name for itself, and an integer or a text for its value. -/
inductive Denotes (t : Token) : Operand → Prop
  | name (named : t.kind = .name) : Denotes t (.name t.text)
  | literal {l : Literal} (literal : IsLiteral t l) : Denotes t (.literal l)

/-- The tokens that stand for operands are as many as the given operands and stand for these, in the same
    order. -/
def Mentions (ts : List Token) (os : List Operand) : Prop :=
  List.Forall₂ Denotes (ts.filter Token.isOperand) os

namespace Mentions

variable {ts us : List Token} {t : Token} {os ps : List Operand}

theorem nil : Mentions [] [] :=
  List.Forall₂.nil

theorem append (first : Mentions ts os) (second : Mentions us ps) :
    Mentions (ts ++ us) (os ++ ps) := by
  rw [Mentions, List.filter_append]
  exact List.rel_append first second

/-- A token that stands for no operand goes before. -/
theorem cons (other : t.isOperand = false) (rest : Mentions ts os) : Mentions (t :: ts) os := by
  rw [Mentions, List.filter_cons_of_neg (by simp [other])]
  exact rest

/-- A token that stands for no operand comes after. -/
theorem snoc (before : Mentions ts os) (other : t.isOperand = false) :
    Mentions (ts ++ [t]) os := by
  have longer := before.append (nil.cons other)
  rwa [List.append_nil] at longer

theorem of_isLiteral {l : Literal} (literal : IsLiteral t l) : Mentions [t] [.literal l] := by
  have operand : t.isOperand = true := by
    rcases literal.kind with kind | kind <;> rw [Token.isOperand, kind]
  rw [Mentions, List.filter_cons_of_pos operand]
  exact .cons (.literal literal) .nil

theorem of_isCall {c : Call Nat} (call : IsCall ts c) : Mentions ts c.operands := by
  cases call with
  | @mk name opening argument closing l named opened argued closed =>
    have operand : name.isOperand = true := by rw [Token.isOperand, named]
    have after : Mentions [opening, argument, closing] [.literal l] :=
      ((of_isLiteral argued).snoc (by rw [Token.isOperand, closed])).cons (by rw [Token.isOperand, opened])
    rw [Mentions, List.filter_cons_of_pos operand]
    exact .cons (.name named) after

theorem of_isList {ls : List Literal} (list : IsList ts ls) : Mentions ts (ls.map .literal) := by
  induction list with
  | literal first => exact of_isLiteral first
  | comma _ separated next _ before =>
    rw [List.map_append]
    exact before.append ((of_isLiteral next).cons (by rw [Token.isOperand, separated]))

theorem of_isComparison {u : Test Nat} (test : IsComparison ts u) : Mentions ts u.operands := by
  cases test with
  | call left => exact of_isCall left
  | compare left related right =>
    exact (of_isCall left).append ((of_isLiteral right).cons (by rw [Token.isOperand, related]))
  | compareCalls left related right =>
    exact (of_isCall left).append ((of_isCall right).cons (by rw [Token.isOperand, related]))
  | member left within opened list closed =>
    have grouped := (of_isList list).cons (by rw [Token.isOperand, opened])
    have inside := grouped.cons (by rw [Token.isOperand, within])
    exact ((of_isCall left).append inside).snoc (by rw [Token.isOperand, closed])
  | memberCall left within right =>
    exact (of_isCall left).append ((of_isCall right).cons (by rw [Token.isOperand, within]))

/-- A phrase mentions the operands of its syntax tree. -/
theorem of_derives {p : Phrase} {n : Nat} {w : Written} (derived : Derives p n ts w) :
    Mentions ts (Condition.operands w) := by
  induction derived with
  | @comparison n ts u test =>
    have single : Condition.operands (.test u) = u.operands := List.flatMap_singleton ..
    rw [single]
    exact of_isComparison test
  | negation negated _ operand => exact operand.cons (by rw [Token.isOperand, negated])
  | group opened _ closed inside =>
    exact (inside.cons (by rw [Token.isOperand, opened])).snoc (by rw [Token.isOperand, closed])
  | item _ first | condition _ first =>
    simpa only [Condition.operands, Formula.tests, Formula.testsAll, List.append_nil] using first
  | and _ joined _ before last | or _ joined _ before last =>
    have both := before.append (last.cons (by rw [Token.isOperand, joined]))
    simpa only [Condition.operands, Formula.tests, Formula.testsAll_eq_flatMap, List.flatMap_append,
      List.flatMap_singleton] using both

end Mentions

end Grammar

namespace Registry

variable {α : Type}

/-- The operands of a compiled condition are the names, integers and texts of the query: as many, in the
    order of the query, each name itself and each integer or text decoded. -/
theorem compile_operands (registry : Registry α) (query : String) (c : Condition α)
    (compiled : registry.compile query = .ok c) :
    List.Forall₂ Grammar.Denotes ((tokenize query).filter Token.isOperand) c.operands := by
  obtain ⟨w, u, derived, bound, rfl⟩ := (registry.compile_eq_ok_iff_derives query c).mp compiled
  have mentions := Grammar.Mentions.of_derives derived
  have kept : u.operands = w.operands :=
    Condition.operands_of_traverse (fun _ _ => bare_of_boundCall?) bound
  rwa [Condition.operands_simplify, kept]

/-- A list of one constant in a negated group, a repeated call, an escape and a comparison of two calls. -/
theorem compile_operands_negated_group :
    let registry : Registry Bool := { integerFallback := some true, textFallback := some false }
    let query := "not (a('x\\'y') in (-02) or b(1)) and b(1) < d(3)"
    let c : Condition Bool := .all [
      .all [
        .test (.compare ⟨"a", .text "x'y", false, false⟩ .unequal (.integer (-2))),
        .test (.call ⟨"b", .integer 1, true, true⟩)],
      .test (.compareCalls ⟨"b", .integer 1, true, false⟩ .less ⟨"d", .integer 3, true, false⟩)]
    registry.compile query = .ok c ∧
      List.Forall₂ Grammar.Denotes ((tokenize query).filter Token.isOperand) c.operands ∧
      c.operands = [.name "a", .literal (.text "x'y"), .literal (.integer (-2)), .name "b",
        .literal (.integer 1), .name "b", .literal (.integer 1), .name "d", .literal (.integer 3)] := by
  intro registry query c
  have compiled : registry.compile query = .ok c := by cbv
  exact ⟨compiled, registry.compile_operands query c compiled, rfl⟩

end Registry

end RecordQuery
