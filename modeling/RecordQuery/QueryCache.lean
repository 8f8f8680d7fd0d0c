import RecordQuery.Event
import RecordQuery.QueryCache.Bounded
import RecordQuery.QueryCache.Unbounded
import RecordQuery.Text.Structure

/-!
# Query caches

Compiled conditions kept under the exact texts of their queries: all of them, or as many as fit.
-/

namespace RecordQuery

/-- A cache of either kind. -/
inductive QueryCache (β : Type) where
  | unbounded (c : UnboundedCache β)
  | bounded (c : BoundedCache β)

namespace QueryCache

variable {β : Type}

/-- The number of entries. -/
def size : QueryCache β → Nat
  | unbounded c => c.size
  | bounded c => c.size

/-- The capacity of a bounded cache. -/
def capacity? : QueryCache β → Option Nat
  | unbounded _ => none
  | bounded c => some c.capacity

/-- The value under a key, if there is one, and the cache after it was looked up. -/
def load (key : String) : QueryCache β → Option β × QueryCache β
  | unbounded c => (c.load key, unbounded c)
  | bounded c =>
    let (value, c) := c.load key
    (value, bounded c)

/-- Put a value under a key, and tell what was dropped for it. -/
def store (key : String) (value : β) : QueryCache β → QueryCache β × List Event
  | unbounded c => (unbounded (c.store key value), [])
  | bounded c =>
    let (c, dropped) := c.store key value
    (bounded c, dropped.toList.map fun old => .evicted old c.capacity)

/-- A cache on one line. -/
def structureText : QueryCache β → String
  | unbounded c => Text.record "MapCache" [("len", toString c.size)]
  | bounded c => Text.record "LruCache" [("capacity", toString c.capacity), ("len", toString c.size)]

end QueryCache

end RecordQuery
