import RecordQuery.Formula
import RecordQuery.Literal

/-!
# Conditions

What a query asks of a record: a formula over tests, each of which calls one or two accessors and
looks at what they answer. A call carries the accessor it is bound to, of any type `α`; before
binding that place holds the offset of the call's name in the query.
-/

namespace RecordQuery

/-- One use of an accessor. -/
structure Call (α : Type) where
  name : String
  argument : Literal
  accessor : α
  /-- Whether the truth of the answer is inverted where the call is a test of its own. -/
  negated : Bool := false
deriving DecidableEq, Repr

namespace Call

variable {α : Type}

/-- The call with its truth inverted. -/
def negate (c : Call α) : Call α :=
  { c with negated := !c.negated }

/-- A call as it is shown in a dump. -/
def display (c : Call α) : String :=
  c.name ++ "(" ++ c.argument.display ++ ")"

end Call

/-- One test of a record. -/
inductive Test (α : Type) where
  /-- The call's answer counts as true. -/
  | call (c : Call α)
  /-- The call's answer stands in a relation to a constant. -/
  | compare (c : Call α) (r : Relation) (target : Literal)
  /-- The answers of two calls stand in a relation. -/
  | compareCalls (left : Call α) (r : Relation) (right : Call α)
  /-- The call's answer is one of some constants, or none of them if negated. -/
  | member (c : Call α) (choices : Choices) (negated : Bool)
  /-- The left call's answer is in the list that the right call answers, or is not if negated. -/
  | memberCall (left right : Call α) (negated : Bool)
deriving DecidableEq, Repr

namespace Test

variable {α β : Type}

/-- The test that holds exactly when this one does not. -/
def negate : Test α → Test α
  | call c => call c.negate
  | compare c r target => compare c r.reverse target
  | compareCalls left r right => compareCalls left r.reverse right
  | member c choices negated => member c choices (!negated)
  | memberCall left right negated => memberCall left right (!negated)

/-- The test with membership in a list of one constant written as equality with it. -/
def unlist : Test α → Test α
  | member c (.integers [n]) negated => compare c (if negated then .unequal else .equal) (.integer n)
  | member c (.texts [s]) negated => compare c (if negated then .unequal else .equal) (.text s)
  | t => t

/-- The calls of a test, from left to right. -/
def calls : Test α → List (Call α)
  | call c => [c]
  | compare c _ _ => [c]
  | compareCalls left _ right => [left, right]
  | member c _ _ => [c]
  | memberCall left right _ => [left, right]

/-- The test with `f` done to each call, from left to right. -/
def traverse {m : Type → Type} [Monad m] (f : Call α → m (Call β)) : Test α → m (Test β)
  | call c => return call (← f c)
  | compare c r target => return compare (← f c) r target
  | compareCalls left r right => return compareCalls (← f left) r (← f right)
  | member c choices negated => return member (← f c) choices negated
  | memberCall left right negated => return memberCall (← f left) (← f right) negated

theorem negate_negate (t : Test α) : t.negate.negate = t := by
  cases t <;> simp [negate, Call.negate, Relation.reverse_reverse]

end Test

/-- A formula over tests of records. -/
abbrev Condition (α : Type) := Formula (Test α)

namespace Condition

variable {α β : Type}

/-- The complement of a condition. -/
def negate (c : Condition α) : Condition α :=
  Formula.negate Test.negate c

/-- The calls of a condition, from left to right. -/
def calls (c : Condition α) : List (Call α) :=
  c.tests.flatMap Test.calls

/-- The condition in the form in which it is kept: no negations but those inside the tests, no
    groups of one operand, no lists of one constant. -/
def simplify (c : Condition α) : Condition α :=
  c.settle (fun negated t => if negated then t.unlist.negate else t.unlist) false

end Condition

end RecordQuery
