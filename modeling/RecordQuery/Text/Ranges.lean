/-!
# Sets of code points given by ranges

A Unicode property is written down as the ranges of code points that have it.
-/

namespace RecordQuery.Text

/-- A set of code points: those from the first to the last of some row, both included. -/
structure Ranges where
  rows : Array (Nat × Nat)

/-- Whether a character lies in one of the ranges. -/
def Ranges.contains (r : Ranges) (c : Char) : Bool :=
  r.rows.any fun (first, last) => first ≤ c.toNat && c.toNat ≤ last

end RecordQuery.Text
