/-!
# Structured text

The one-line spelling of truth values, lists and named records, as dumps for debugging show them.
-/

namespace RecordQuery.Text

/-- A truth value. -/
def truth (b : Bool) : String :=
  if b then "true" else "false"

/-- Texts between square brackets, separated by commas. -/
def bracketed (items : List String) : String :=
  "[" ++ String.intercalate ", " items ++ "]"

/-- A name and its fields between braces, each field with its own name. -/
def record (name : String) (fields : List (String × String)) : String :=
  name ++ " \x7b " ++ String.intercalate ", " (fields.map fun (k, v) => k ++ ": " ++ v) ++ " \x7d"

end RecordQuery.Text
