import Std.Data.HashMap

/-!
# Bounded caches

A cache of limited capacity that makes room by dropping the entry that has gone unused for longest.
The entries stand in slots; an index finds the slot of a key, and each slot names its neighbours in
the order of use. A new entry takes the slot of the one that is dropped for it.
-/

namespace RecordQuery

/-- An entry and its neighbours in the order of use. -/
structure Slot (β : Type) where
  key : String
  value : β
  /-- The slot that was used next after this one. -/
  newer : Option Nat := none
  /-- The slot that was used last before this one. -/
  older : Option Nat := none

/-- A cache of at most `capacity` entries. -/
structure BoundedCache (β : Type) where
  capacity : Nat
  slots : Array (Slot β) := #[]
  index : Std.HashMap String Nat := {}
  /-- The slot that was used last. -/
  newest : Option Nat := none
  /-- The slot that has gone unused for longest. -/
  oldest : Option Nat := none

namespace BoundedCache

variable {β : Type}

/-- An empty cache; a capacity of zero counts as one. -/
def ofCapacity (capacity : Nat) : BoundedCache β :=
  { capacity := max capacity 1 }

/-- The number of entries. -/
def size (c : BoundedCache β) : Nat :=
  c.index.size

/-- Whether there are no entries. -/
def isEmpty (c : BoundedCache β) : Bool :=
  c.index.isEmpty

/-- Whether there is an entry under a key. Asking is not a use. -/
def contains (c : BoundedCache β) (key : String) : Bool :=
  c.index.contains key

/-- The cache with one slot changed. -/
def modifySlot (c : BoundedCache β) (i : Nat) (f : Slot β → Slot β) : BoundedCache β :=
  { c with slots := c.slots.modify i f }

/-- Take a slot out of the order of use. -/
def unlink (c : BoundedCache β) (i : Nat) : BoundedCache β :=
  match c.slots[i]? with
  | none => c
  | some slot =>
    let c := match slot.newer with
      | some n => c.modifySlot n fun s => { s with older := slot.older }
      | none => { c with newest := slot.older }
    let c := match slot.older with
      | some o => c.modifySlot o fun s => { s with newer := slot.newer }
      | none => { c with oldest := slot.newer }
    c.modifySlot i fun s => { s with newer := none, older := none }

/-- Put a slot that is out of the order of use at its newest end. -/
def pushNewest (c : BoundedCache β) (i : Nat) : BoundedCache β :=
  let front := c.newest
  let c := c.modifySlot i fun s => { s with newer := none, older := front }
  let c := match front with
    | some n => c.modifySlot n fun s => { s with newer := some i }
    | none => c
  { c with newest := some i, oldest := c.oldest.or (some i) }

/-- Make a slot the newest. -/
def touch (c : BoundedCache β) (i : Nat) : BoundedCache β :=
  if c.newest = some i then c else (c.unlink i).pushNewest i

/-- The value under a key, if there is one; finding it is a use. -/
def load (c : BoundedCache β) (key : String) : Option β × BoundedCache β :=
  match c.index[key]? with
  | none => (none, c)
  | some i =>
    let c := c.touch i
    (c.slots[i]?.map Slot.value, c)

/-- Put a value under a key, which is a use of it, and tell which key was dropped to make room. -/
def store (c : BoundedCache β) (key : String) (value : β) : BoundedCache β × Option String :=
  match c.index[key]? with
  | some i => ((c.modifySlot i fun s => { s with value }).touch i, none)
  | none =>
    if c.slots.size < c.capacity then
      let i := c.slots.size
      let c := { c with slots := c.slots.push { key, value }, index := c.index.insert key i }
      (c.pushNewest i, none)
    else
      match c.oldest with
      | none => (c, none)
      | some i =>
        let c := c.unlink i
        match c.slots[i]? with
        | none => (c, none)
        | some slot =>
          let c := c.modifySlot i fun s => { s with key, value }
          let c := { c with index := (c.index.erase slot.key).insert key i }
          (c.pushNewest i, some slot.key)

end BoundedCache

end RecordQuery
