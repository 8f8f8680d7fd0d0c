import RecordQuery.Proofs.QueryCache.Refinement

/-!
# What a cache holds

The values that a cache of either kind holds under its keys. Looking a key up changes none of them, and
storing a value changes at most the ones under its own key and under the key that is dropped for it.
-/

namespace RecordQuery

namespace RecencyList

variable {β : Type} {l : RecencyList β} {key other : String} {value v : β}

theorem lookup_cons_of_ne (differ : other ≠ key) (value : β) (entries : List (String × β)) :
    ((key, value) :: entries).lookup other = entries.lookup other := by
  rw [List.lookup_cons, beq_eq_false_iff_ne.mpr differ]

theorem lookup_without (differ : other ≠ key) (entries : List (String × β)) :
    (without key entries).lookup other = entries.lookup other := by
  induction entries with
  | nil => rfl
  | cons e entries ih =>
    obtain ⟨k, w⟩ := e
    rw [without] at ih
    by_cases dropped : k = key
    · rw [without, List.filter_cons_of_neg (by simpa using dropped), ih,
        lookup_cons_of_ne (dropped ▸ differ)]
    · rw [without, List.filter_cons_of_pos (by simpa using dropped)]
      by_cases here : other = k
      · rw [here, List.lookup_cons_self, List.lookup_cons_self]
      · rw [lookup_cons_of_ne here, lookup_cons_of_ne here, ih]

/-- Moving an entry to the front does not change what is found. -/
theorem find?_load (l : RecencyList β) (key other : String) :
    (l.load key).2.find? other = l.find? other := by
  unfold load
  cases found : l.find? key with
  | none => rfl
  | some value =>
    show ((key, value) :: without key l.entries).lookup other = l.find? other
    by_cases same : other = key
    · rw [same, List.lookup_cons_self, found]
    · rw [lookup_cons_of_ne same, lookup_without same, find?]

/-- What is found after a value was stored is that value, or was found before under another key. -/
theorem find?_of_find?_store (found : (l.store key value).1.find? other = some v) :
    if other = key then v = value else l.find? other = some v := by
  have front : ∀ entries : List (String × β),
      ((key, value) :: entries).lookup other = some v →
      (other ≠ key → entries.lookup other = some v → l.find? other = some v) →
      if other = key then v = value else l.find? other = some v := by
    intro entries listed kept
    by_cases same : other = key
    · rw [same, List.lookup_cons_self] at listed
      rw [if_pos same]
      exact (Option.some.inj listed).symm
    · rw [lookup_cons_of_ne same] at listed
      rw [if_neg same]
      exact kept same listed
  unfold store at found
  split at found
  · apply front _ found
    intro differ listed
    rwa [lookup_without differ] at listed
  split at found
  · apply front _ found
    intro _ listed
    rcases List.eq_nil_or_concat l.entries with empty | ⟨es, last, split⟩
    · rw [empty] at listed
      cases listed
    · rw [split, List.concat_eq_append, List.dropLast_concat] at listed
      rw [find?, split, List.concat_eq_append, List.lookup_append, listed, Option.some_or]
  · apply front _ found
    intro _ listed
    exact listed

/-- What was stored is found. -/
theorem find?_store_self (l : RecencyList β) (key : String) (value : β) :
    (l.store key value).1.find? key = some value := by
  unfold store
  split
  · exact List.lookup_cons_self
  split
  · exact List.lookup_cons_self
  · exact List.lookup_cons_self

end RecencyList

namespace QueryCache

variable {β : Type} {c : QueryCache β} {key other : String} {value v : β}

/-- An empty cache: without a limit, or of a capacity. -/
def ofLimit : Option Nat → QueryCache β
  | none => unbounded {}
  | some capacity => bounded (.ofCapacity capacity)

/-- Whether there is a value under a key. -/
def contains (key : String) : QueryCache β → Bool
  | unbounded c => c.entries.contains key
  | bounded c => c.contains key

/-- The value under a key. -/
def find? (c : QueryCache β) (key : String) : Option β :=
  (c.load key).1

/-- The entries of a bounded cache make a recency list. -/
def Valid : QueryCache β → Prop
  | unbounded _ => True
  | bounded c => ∃ order l, c.Represents order l

theorem find?_bounded {c : BoundedCache β} {order : List Nat} {l : RecencyList β}
    (h : c.Represents order l) (key : String) : (bounded c).find? key = l.find? key := by
  have loaded := (h.load key).1
  rw [find?, load, loaded, RecencyList.load]
  cases l.find? key <;> rfl

theorem valid_ofLimit (limit : Option Nat) : (ofLimit limit : QueryCache β).Valid := by
  cases limit with
  | none => trivial
  | some capacity => exact ⟨[], _, .ofCapacity capacity⟩

theorem find?_ofLimit (limit : Option Nat) (key : String) :
    (ofLimit limit : QueryCache β).find? key = none := by
  cases limit with
  | none => exact Std.HashMap.getElem?_empty
  | some capacity => exact find?_bounded (.ofCapacity capacity) key

namespace Valid

theorem contains_iff (valid : c.Valid) (key : String) :
    c.contains key = (c.find? key).isSome := by
  cases c with
  | unbounded c => exact Std.HashMap.contains_eq_isSome_getElem?
  | bounded c =>
    obtain ⟨order, l, h⟩ := valid
    rw [find?_bounded h, h.isSome_find?]
    exact Std.HashMap.contains_eq_isSome_getElem?

/-- Looking a key up changes nothing that the cache holds. -/
theorem load (valid : c.Valid) (key : String) :
    (c.load key).2.Valid ∧ ∀ other, (c.load key).2.find? other = c.find? other := by
  cases c with
  | unbounded c => exact ⟨trivial, fun _ => rfl⟩
  | bounded c =>
    obtain ⟨order, l, h⟩ := valid
    obtain ⟨_, order', after⟩ := h.load key
    refine ⟨⟨order', _, after⟩, fun other => ?_⟩
    rw [find?_bounded h, ← l.find?_load key other]
    exact find?_bounded after other

/-- Looking a key up that is not there changes nothing at all. -/
theorem load_of_find?_eq_none (valid : c.Valid) (missed : c.find? key = none) :
    c.load key = (none, c) := by
  cases c with
  | unbounded c =>
    have absent : c.load key = none := missed
    rw [QueryCache.load, absent]
  | bounded c =>
    have absent : c.index[key]? = none := by
      obtain ⟨order, l, h⟩ := valid
      have listed := h.isSome_find? key
      rw [← find?_bounded h, missed] at listed
      apply Option.not_isSome_iff_eq_none.mp
      rw [← listed]
      exact Bool.false_ne_true
    simp only [QueryCache.load, BoundedCache.load, absent]

/-- Storing puts one value under one key, and may take another key's value away. -/
theorem store (valid : c.Valid) (key : String) (value : β) :
    (c.store key value).1.Valid ∧ (c.store key value).1.find? key = some value ∧
      ∀ other v, (c.store key value).1.find? other = some v →
        if other = key then v = value else c.find? other = some v := by
  cases c with
  | unbounded c =>
    refine ⟨trivial, (c.load_store key key value).trans (if_pos rfl), fun other v found => ?_⟩
    have stored := (c.load_store key other value).symm.trans found
    by_cases same : other = key
    · rw [if_pos same.symm] at stored
      rw [if_pos same]
      exact (Option.some.inj stored).symm
    · rw [if_neg (Ne.symm same)] at stored
      rw [if_neg same]
      exact stored
  | bounded c =>
    obtain ⟨order, l, h⟩ := valid
    obtain ⟨_, order', after⟩ := h.store key value
    refine ⟨⟨order', _, after⟩, ?_, fun other v found => ?_⟩
    · rw [← l.find?_store_self key value]
      exact find?_bounded after key
    · rw [find?_bounded h]
      exact RecencyList.find?_of_find?_store ((find?_bounded after other).symm.trans found)

end Valid

end QueryCache

end RecordQuery
