import Std.Data.HashMap

/-!
# Unbounded caches

A cache that keeps everything that is put into it.
-/

namespace RecordQuery

/-- A cache without a limit. -/
structure UnboundedCache (β : Type) where
  entries : Std.HashMap String β := {}

namespace UnboundedCache

variable {β : Type}

/-- The number of entries. -/
def size (c : UnboundedCache β) : Nat :=
  c.entries.size

/-- The value under a key, if there is one. -/
def load (c : UnboundedCache β) (key : String) : Option β :=
  c.entries[key]?

/-- Put a value under a key. -/
def store (c : UnboundedCache β) (key : String) (value : β) : UnboundedCache β :=
  ⟨c.entries.insert key value⟩

theorem load_store (c : UnboundedCache β) (key other : String) (value : β) :
    (c.store key value).load other = if key = other then some value else c.load other := by
  simp [load, store, Std.HashMap.getElem?_insert]

end UnboundedCache

end RecordQuery
