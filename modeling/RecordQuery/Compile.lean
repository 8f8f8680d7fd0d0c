import RecordQuery.Event
import RecordQuery.Reader
import RecordQuery.Registry.Suggestion

/-!
# Compiling queries

From the text of a query to a condition whose calls are bound to accessors. The calls are bound in
the order of the query, and a call without an accessor is reported before any error that comes after
it.
-/

namespace RecordQuery

/-- A computation that binds calls and logs what it does. -/
abbrev Binding := EStateM QueryError (List Event)

/-- Put an event into the log. -/
def Binding.log (e : Event) : Binding Unit :=
  modify (· ++ [e])

namespace Registry

variable {α : Type}

/-- Bind a call, whose place in the query stands where its accessor goes. -/
def bindCall (registry : Registry α) (c : Call Nat) : Binding (Call α) := do
  let type := c.argument.type
  match registry.resolve type c.name with
  | some (.registered accessor) => return { c with accessor }
  | some (.fallback accessor) =>
    Binding.log (.fallbackBound type c.name)
    return { c with accessor }
  | none =>
    throw ⟨c.accessor, .unboundCall c.name type (registry.suggest type c.name)⟩

/-- Bind the calls of a reading. The calls before an error are bound too, as one of them may have no
    accessor. -/
def bindReading (registry : Registry α) : Reading → Binding (Condition α)
  | .complete w => w.simplify.traverse (Test.traverse registry.bindCall)
  | .stopped calls error => do
    calls.forM fun c => discard (registry.bindCall c)
    throw error

/-- The condition of a query or the first error in it, and what happened on the way. -/
def compileLogged (registry : Registry α) (query : String) :
    Except QueryError (Condition α) × List Event :=
  match registry.bindReading (.ofQuery query) [] with
  | .ok condition events => (.ok condition, events)
  | .error error events => (.error error, events ++ [.compileFailed query error])

/-- The condition of a query or the first error in it. -/
def compile (registry : Registry α) (query : String) : Except QueryError (Condition α) :=
  (registry.compileLogged query).1

end Registry

end RecordQuery
