import RecordQuery.QueryCache

/-!
# Recency lists

What a bounded cache is meant to do, said of a plain list of its entries, the latest used first. A list
and a cache serve the same requests; they are compared by their answers.
-/

namespace RecordQuery

/-- Something that is asked of a cache. -/
inductive CacheRequest (β : Type) where
  | load (key : String)
  | store (key : String) (value : β)
  | contains (key : String)
  | size
  | isEmpty
deriving DecidableEq, Repr

/-- What a cache answers. -/
inductive CacheAnswer (β : Type) where
  /-- The value under a key, if there was one. -/
  | found (value : Option β)
  /-- A value was stored, with these events. -/
  | stored (events : List Event)
  | count (n : Nat)
  | truth (b : Bool)
deriving DecidableEq, Repr

/-- The answers to requests that are made one after the other, and the state after them. -/
def CacheRequest.serve {β σ : Type} (respond : σ → CacheRequest β → CacheAnswer β × σ) :
    σ → List (CacheRequest β) → List (CacheAnswer β) × σ
  | s, [] => ([], s)
  | s, request :: requests =>
    let (answer, s) := respond s request
    let (answers, s) := serve respond s requests
    (answer :: answers, s)

/-- A list of at most `capacity` keys and values, the latest used first. -/
structure RecencyList (β : Type) where
  capacity : Nat
  entries : List (String × β) := []
deriving DecidableEq, Repr

namespace RecencyList

variable {β : Type}

/-- An empty list; a capacity of zero counts as one. -/
def ofCapacity (capacity : Nat) : RecencyList β :=
  { capacity := max capacity 1 }

/-- The value under a key. -/
def find? (l : RecencyList β) (key : String) : Option β :=
  l.entries.lookup key

/-- The entries but those under a key. -/
def without (key : String) (entries : List (String × β)) : List (String × β) :=
  entries.filter fun e => e.1 ≠ key

/-- Look a key up. If there is an entry it is moved to the front, else nothing changes. -/
def load (l : RecencyList β) (key : String) : Option β × RecencyList β :=
  match l.find? key with
  | none => (none, l)
  | some value => (some value, { l with entries := (key, value) :: without key l.entries })

/-- Put an entry in front, in place of the one under its key. If there is none and the list is full,
    the last entry is dropped; its key is told. -/
def store (l : RecencyList β) (key : String) (value : β) : RecencyList β × Option String :=
  if (l.find? key).isSome then
    ({ l with entries := (key, value) :: without key l.entries }, none)
  else if l.entries.length = l.capacity then
    ({ l with entries := (key, value) :: l.entries.dropLast }, l.entries.getLast?.map Prod.fst)
  else
    ({ l with entries := (key, value) :: l.entries }, none)

/-- The answer to a request and the list after it. An entry that is dropped makes an event. -/
def respond (l : RecencyList β) : CacheRequest β → CacheAnswer β × RecencyList β
  | .load key =>
    let (value, l) := l.load key
    (.found value, l)
  | .store key value =>
    let (l, dropped) := l.store key value
    (.stored (dropped.toList.map fun old => .evicted old l.capacity), l)
  | .contains key => (.truth (l.find? key).isSome, l)
  | .size => (.count l.entries.length, l)
  | .isEmpty => (.truth l.entries.isEmpty, l)

theorem lookup_eq_none_of_fresh {es : List (String × β)} {key : String} (fresh : ∀ e ∈ es, e.1 ≠ key) :
    es.lookup key = none :=
  List.lookup_eq_none_iff.mpr fun e inside => bne_iff_ne.mpr (Ne.symm (fresh e inside))

/-- The value of an entry is found if no other entry has its key. -/
theorem lookup_append_cons {es fs : List (String × β)} {key : String}
    (fresh : ∀ e ∈ es ++ fs, e.1 ≠ key) (value : β) :
    (es ++ (key, value) :: fs).lookup key = some value := by
  have missed := lookup_eq_none_of_fresh fun e inside => fresh e (List.mem_append_left fs inside)
  rw [List.lookup_append, missed, List.lookup_cons_self, Option.none_or]

/-- The entry under a key is the only one that goes if no other one has the key. -/
theorem without_append_cons {es fs : List (String × β)} {key : String}
    (fresh : ∀ e ∈ es ++ fs, e.1 ≠ key) (value : β) :
    without key (es ++ (key, value) :: fs) = es ++ fs := by
  have kept : without key (es ++ fs) = es ++ fs :=
    List.filter_eq_self.mpr fun e inside => decide_eq_true (fresh e inside)
  rw [without, List.filter_append] at kept ⊢
  rw [List.filter_cons_of_neg (by simp), kept]

end RecencyList

end RecordQuery
