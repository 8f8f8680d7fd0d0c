import RecordQuery.QueryError

/-!
# Events

What happens behind the scenes while queries are parsed, for a log.
-/

namespace RecordQuery

/-- How important an event is. -/
inductive EventLevel where
  | debug
  | trace
deriving DecidableEq, Repr

/-- The name of a level. -/
def EventLevel.name : EventLevel → String
  | debug => "DEBUG"
  | trace => "TRACE"

/-- Something worth a line in the log. -/
inductive Event where
  /-- The query's condition was found in the cache. -/
  | cacheHit (query : String)
  /-- The query's condition was not in the cache. -/
  | cacheMiss (query : String)
  /-- The query has no condition. -/
  | compileFailed (query : String) (error : QueryError)
  /-- The condition under a key was dropped to make room. -/
  | evicted (key : String) (capacity : Nat)
  /-- A call was bound to the fallback for its argument type. -/
  | fallbackBound (type : LiteralType) (name : String)
deriving DecidableEq, Repr

namespace Event

/-- The level of an event. -/
def level : Event → EventLevel
  | cacheHit _ | cacheMiss _ | compileFailed _ _ => .debug
  | evicted _ _ | fallbackBound _ _ => .trace

/-- The line of an event. -/
def message : Event → String
  | cacheHit _ => "compiled query cache hit"
  | cacheMiss _ => "compiled query cache miss"
  | compileFailed _ _ => "failed to compile query"
  | evicted _ _ => "evicting compiled query"
  | fallbackBound type _ => "binding fallback " ++ type.name ++ " accessor"

end Event

end RecordQuery
