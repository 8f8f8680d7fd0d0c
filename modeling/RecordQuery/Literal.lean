import RecordQuery.Relation
import RecordQuery.Text.Quoted

/-!
# Literals

The constants that a query can write down: 64-bit signed integers and texts. The type of a call's
literal argument selects the table in which the call's accessor is looked up.
-/

namespace RecordQuery

/-- The type of a literal. -/
inductive LiteralType where
  | integer
  | text
deriving DecidableEq, Repr

/-- The name of a literal type in messages. -/
def LiteralType.name : LiteralType → String
  | integer => "int"
  | text => "string"

/-- A constant of a query, decoded. -/
inductive Literal where
  | integer (n : Int64)
  | text (s : String)
deriving DecidableEq, Repr

namespace Literal

/-- The type of a literal. -/
def type : Literal → LiteralType
  | integer _ => .integer
  | text _ => .text

/-- A literal in a dump: an integer in decimal, a text quoted. -/
def display : Literal → String
  | integer n => toString n.toInt
  | text s => Text.quote s

/-- The order of literals: integers by size, texts by their code points, integers before texts. -/
def order : Literal → Literal → Ordering
  | integer m, integer n => compareOfLessAndEq m n
  | text s, text t => compareOfLessAndEq s t
  | integer _, text _ => .lt
  | text _, integer _ => .gt

end Literal

namespace Relation

/-- Whether the relation holds between two literals. -/
def between (r : Relation) (a b : Literal) : Bool :=
  r.holds (a.order b)

theorem between_reverse (r : Relation) (a b : Literal) :
    r.reverse.between a b = !r.between a b :=
  holds_reverse r _

end Relation

/-- The constants of a list written in a query; all have one type. -/
inductive Choices where
  | integers (ns : List Int64)
  | texts (ss : List String)
deriving DecidableEq, Repr

namespace Choices

/-- The list of one constant. -/
def singleton : Literal → Choices
  | .integer n => integers [n]
  | .text s => texts [s]

/-- The list with one more constant at its end, if that has the list's type. -/
def push? : Choices → Literal → Option Choices
  | integers ns, .integer n => some (integers (ns ++ [n]))
  | texts ss, .text s => some (texts (ss ++ [s]))
  | _, _ => none

/-- The type of the constants. -/
def type : Choices → LiteralType
  | integers _ => .integer
  | texts _ => .text

/-- The constants, in order. -/
def toList : Choices → List Literal
  | integers ns => ns.map .integer
  | texts ss => ss.map .text

/-- Whether a literal is one of the constants. -/
def contains (c : Choices) (l : Literal) : Bool :=
  c.toList.contains l

theorem toList_singleton (l : Literal) : (singleton l).toList = [l] := by
  cases l <;> rfl

theorem toList_push {c d : Choices} {l : Literal} (h : c.push? l = some d) :
    d.toList = c.toList ++ [l] := by
  cases c <;> cases l <;> simp_all [push?, toList] <;> subst h <;> simp

theorem push?_isSome_iff {c : Choices} {l : Literal} :
    (c.push? l).isSome ↔ l.type = c.type := by
  cases c <;> cases l <;> simp [push?, type, Literal.type]

theorem type_of_mem_toList {c : Choices} {l : Literal} (h : l ∈ c.toList) : l.type = c.type := by
  cases c <;> obtain ⟨_, _, rfl⟩ := List.mem_map.mp h <;> rfl

/-- Lists of one type are equal if they hold the same constants. -/
theorem eq_of_toList_eq {c d : Choices} (ht : c.type = d.type) (h : c.toList = d.toList) :
    c = d := by
  cases c with
  | integers ms =>
    cases d with
    | integers ns => rw [(List.map_inj_right fun _ _ => Literal.integer.inj).mp h]
    | texts ss => simp [type] at ht
  | texts rs =>
    cases d with
    | integers ns => simp [type] at ht
    | texts ss => rw [(List.map_inj_right fun _ _ => Literal.text.inj).mp h]

end Choices

end RecordQuery
