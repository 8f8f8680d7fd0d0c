import RecordQuery.Registry
import RecordQuery.Text.EditDistance
import RecordQuery.Text.Lowercase

/-!
# Suggestions

The registered name that a misspelt one was probably meant to be: the nearest in edit distance,
letter case aside, if it is near enough. Of equally near names the first in the order of code points
is taken, so the order of registration does not matter.
-/

namespace RecordQuery

/-- The greatest distance of a suggested name. -/
def maxSuggestionDistance : Nat := 3

/-- Whether a candidate at a distance is taken before another. -/
def isBetterMatch (a b : Nat × String) : Bool :=
  a.1 < b.1 || (a.1 == b.1 && a.2 < b.2)

/-- The candidate that is taken before the others. -/
def bestMatch : List (Nat × String) → Option (Nat × String)
  | [] => none
  | a :: rest =>
    match bestMatch rest with
    | some b => if isBetterMatch b a then some b else some a
    | none => some a

/-- The distance of two names, letter case aside. -/
def nameDistance (a b : String) : Nat :=
  Text.editDistance (Text.lowercase a.toList) (Text.lowercase b.toList)

/-- The candidate nearest to a name, unless it differs by letter case alone or is too far. The empty
    name is never suggested. -/
def suggestName (name : String) (candidates : List String) : Option String :=
  let named := candidates.filter fun c => !c.isEmpty
  match bestMatch (named.map fun c => (nameDistance name c, c)) with
  | some (distance, best) =>
    if 0 < distance && distance ≤ maxSuggestionDistance then some best else none
  | none => none

/-- The name to suggest for a call without an accessor. -/
def Registry.suggest {α : Type} (registry : Registry α) (type : LiteralType) (name : String) :
    Option String :=
  suggestName name (registry.methods type).names

end RecordQuery
