import RecordQuery.Registry
import RecordQuery.Text.Structure

/-!
# The structure of a registry

A registry on one line: the registered names of each table in the order of code points, and
which of the optional parts are there.
-/

namespace RecordQuery.Registry

variable {α : Type}

/-- The names of a table, sorted and quoted. -/
def namesText (names : List String) : String :=
  Text.bracketed ((names.mergeSort fun a b => decide (a ≤ b)).map Text.quote)

/-- A registry with its parts; `cached` says whether a cache is attached to it. -/
def structureText (registry : Registry α) (cached : Bool) : String :=
  Text.record "ParseConfig"
    [("int_methods", namesText registry.integerMethods.names),
     ("str_methods", namesText registry.textMethods.names),
     ("default_int", Text.truth registry.integerFallback.isSome),
     ("default_str", Text.truth registry.textFallback.isSome),
     ("cache", Text.truth cached)]

end RecordQuery.Registry
