import RecordQuery.Number.Shortest
import RecordQuery.Text.Quoted
import RecordQuery.Text.Structure

/-!
# Values

What an accessor answers about a record. Comparisons use integers and texts, membership tests also
lists of them; as a condition of its own a value counts as true unless it is the zero of its type.
-/

namespace RecordQuery

/-- The type of a value. -/
inductive ValueType where
  | integer
  | text
  | boolean
  | integers
  | texts
  | float
  | null
deriving DecidableEq, Repr

/-- The name of a type in messages. -/
def ValueType.name : ValueType → String
  | integer => "int"
  | text => "string"
  | boolean => "bool"
  | integers => "list of int"
  | texts => "list of string"
  | float => "float"
  | null => "null"

/-- The value an accessor returned. -/
inductive Value where
  | integer (n : Int64)
  | text (s : String)
  | boolean (b : Bool)
  | integers (ns : List Int64)
  | texts (ss : List String)
  | float (x : Binary64)
  | null
deriving DecidableEq, Repr

namespace Value

/-- Whether a value is the zero of its type. -/
def isZero : Value → Bool
  | integer n => n == 0
  | text s => s.isEmpty
  | boolean b => !b
  | integers ns => ns.isEmpty
  | texts ss => ss.isEmpty
  | float x => x.isZero
  | null => true

/-- Whether a value counts as true. -/
def isTruthy (v : Value) : Bool :=
  !v.isZero

/-- The type of a value. -/
def type : Value → ValueType
  | integer _ => .integer
  | text _ => .text
  | boolean _ => .boolean
  | integers _ => .integers
  | texts _ => .texts
  | float _ => .float
  | null => .null

/-- Equality of values: equal content of the same type. Floats are equal as numbers. -/
def equals : Value → Value → Bool
  | float x, float y => x.equals y
  | v, w => v == w

/-- A value as a text. -/
def display : Value → String
  | integer n => toString n.toInt
  | text s => Text.quote s
  | boolean b => Text.truth b
  | integers ns => Text.bracketed (ns.map fun n => toString n.toInt)
  | texts ss => Text.bracketed (ss.map Text.quote)
  | float x => x.display
  | null => "null"

end Value

end RecordQuery
