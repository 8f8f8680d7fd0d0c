import RecordQuery.Compile
import RecordQuery.QueryCache

/-!
# Parsing with a cache

The condition of a query that was parsed before is used again, as the very same shared condition.
Each condition that is compiled anew has a serial number of its own.
-/

namespace RecordQuery

/-- A value that is held in several places at once. Two of them are the same one if their serial
    numbers are equal. -/
structure Shared (β : Type) where
  serial : Nat
  value : β
deriving DecidableEq, Repr

/-- What parsing works with: the cache, if there is one, the next serial number, and the log. -/
structure Workspace (α : Type) where
  cache : Option (QueryCache (Shared (Condition α)))
  nextSerial : Nat
  events : List Event := []

namespace Workspace

variable {α β : Type}

/-- Put events into the log. -/
def log (events : List Event) : StateM (Workspace α) Unit :=
  modify fun w => { w with events := w.events ++ events }

/-- Share a value under a serial number of its own. -/
def share (value : β) : StateM (Workspace α) (Shared β) := do
  let w ← get
  set { w with nextSerial := w.nextSerial + 1 }
  return ⟨w.nextSerial, value⟩

/-- Look a query up in the cache. -/
def lookUp (query : String) : StateM (Workspace α) (Option (Shared (Condition α))) := do
  let w ← get
  match w.cache with
  | none => return none
  | some cache =>
    let (found, cache) := cache.load query
    set { w with cache := some cache }
    log [if found.isSome then .cacheHit query else .cacheMiss query]
    return found

/-- Keep a query's condition in the cache. -/
def keep (query : String) (condition : Shared (Condition α)) : StateM (Workspace α) Unit := do
  let w ← get
  match w.cache with
  | none => return ()
  | some cache =>
    let (cache, events) := cache.store query condition
    set { w with cache := some cache }
    log events

end Workspace

/-- The condition of a query, from the cache if it is there. Only conditions are cached, never
    errors. -/
def Registry.parse {α : Type} (registry : Registry α) (query : String) :
    StateM (Workspace α) (Except QueryError (Shared (Condition α))) := do
  match ← Workspace.lookUp query with
  | some condition => return .ok condition
  | none =>
    let (result, events) := registry.compileLogged query
    Workspace.log events
    match result with
    | .error error => return .error error
    | .ok condition =>
      let shared ← Workspace.share condition
      Workspace.keep query shared
      return .ok shared

end RecordQuery
