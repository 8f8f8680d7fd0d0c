/-!
# Relations

The six ways in which a query compares two things. A relation holds or fails by the order of its two
sides alone, and reversing it swaps the two outcomes (`holds_reverse`).
-/

namespace RecordQuery

/-- A relational operator. -/
inductive Relation where
  | equal
  | unequal
  | less
  | atMost
  | greater
  | atLeast
deriving DecidableEq, Repr

namespace Relation

/-- Every relation. -/
def all : List Relation := [equal, unequal, less, atMost, greater, atLeast]

/-- A relation as it is written in a query. -/
def symbol : Relation → String
  | equal => "="
  | unequal => "<>"
  | less => "<"
  | atMost => "<="
  | greater => ">"
  | atLeast => ">="

/-- The relation that holds exactly when this one does not. -/
def reverse : Relation → Relation
  | equal => unequal
  | unequal => equal
  | less => atLeast
  | atLeast => less
  | atMost => greater
  | greater => atMost

/-- Whether the relation holds between two sides that stand in the given order. -/
def holds : Relation → Ordering → Bool
  | equal, o => o.isEq
  | unequal, o => o.isNe
  | less, o => o.isLT
  | atMost, o => o.isLE
  | greater, o => o.isGT
  | atLeast, o => o.isGE

theorem reverse_reverse (r : Relation) : r.reverse.reverse = r := by
  cases r <;> rfl

theorem holds_reverse (r : Relation) (o : Ordering) : r.reverse.holds o = !r.holds o := by
  cases r <;> cases o <;> rfl

end Relation

end RecordQuery
