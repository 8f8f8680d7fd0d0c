import RecordQuery.Proofs.QueryCache.RecencyList
import RecordQuery.Proofs.QueryCache.Valid

/-!
# Bounded caches are recency lists

The entries of a valid cache, read in the order of use, make a recency list. The list answers each
request as the cache does and stays the cache's list (`represents_respond`), so a new cache cannot be
told from an empty list by any requests: `answers_eq`.
-/

namespace RecordQuery.BoundedCache

variable {β : Type} {c : BoundedCache β} {l : RecencyList β} {order : List Nat} {key : String} {i : Nat}

/-- The answer to a request and the cache after it, with the events that a store makes. -/
def respond (c : BoundedCache β) : CacheRequest β → CacheAnswer β × BoundedCache β
  | .load key =>
    let (value, c) := c.load key
    (.found value, c)
  | .store key value => (.stored ((QueryCache.bounded c).store key value).2, (c.store key value).1)
  | .contains key => (.truth (c.contains key), c)
  | .size => (.count c.size, c)
  | .isEmpty => (.truth c.isEmpty, c)

/-- The cache's entries are those of the list, in the order of use. -/
structure Represents (c : BoundedCache β) (order : List Nat) (l : RecencyList β) : Prop where
  valid : c.Valid order
  entries : order.map c.content? = l.entries.map some
  capacity : l.capacity = c.capacity

namespace Represents

theorem ofCapacity (capacity : Nat) :
    (ofCapacity capacity : BoundedCache β).Represents [] (.ofCapacity capacity) :=
  ⟨.ofCapacity capacity, rfl, rfl⟩

/-- The slot of an entry of the list. -/
theorem exists_slot (h : c.Represents order l) {e : String × β} (inside : e ∈ l.entries) :
    ∃ i ∈ order, c.content? i = some e := by
  have mapped : some e ∈ order.map c.content? := h.entries ▸ List.mem_map_of_mem inside
  exact List.mem_map.mp mapped

/-- A key that is not in the index is not in the list. -/
theorem find?_absent (h : c.Represents order l) (absent : c.index[key]? = none) :
    l.find? key = none := by
  refine List.lookup_eq_none_iff.mpr fun e inside => ?_
  obtain ⟨i, _, found⟩ := h.exists_slot inside
  rw [bne_iff_ne]
  rintro rfl
  rw [(h.valid.indexed.finds e.1 i).mpr ⟨e.2, found⟩] at absent
  cases absent

/-- A key in the index has an entry in the list, at the place of its slot, and no other one. -/
theorem exists_entry (h : c.Represents order l) (present : c.index[key]? = some i) :
    ∃ xs ys es fs v, order = xs ++ i :: ys ∧ l.entries = es ++ (key, v) :: fs ∧
      c.content? i = some (key, v) ∧ (xs ++ ys).map c.content? = (es ++ fs).map some ∧
      ∀ e ∈ es ++ fs, e.1 ≠ key := by
  obtain ⟨xs, ys, v, rfl, found⟩ := h.valid.exists_slot present
  have entries := h.entries.symm
  rw [List.map_append, List.map_cons, List.map_eq_append_iff] at entries
  obtain ⟨es, rest, split, newer, older⟩ := entries
  obtain ⟨e, fs, rfl, here, older'⟩ := List.map_eq_cons_iff.mp older
  obtain rfl : e = (key, v) := Option.some.inj (here.trans found)
  have others : (xs ++ ys).map c.content? = (es ++ fs).map some := by
    rw [List.map_append, List.map_append, newer, older']
  refine ⟨xs, ys, es, fs, v, rfl, split, found, others, fun f inside same => ?_⟩
  have mapped : some f ∈ (xs ++ ys).map c.content? := others ▸ List.mem_map_of_mem inside
  obtain ⟨j, other, found'⟩ := List.mem_map.mp mapped
  have again : c.index[key]? = some j := (h.valid.indexed.finds key j).mpr ⟨f.2, same ▸ found'⟩
  obtain rfl : i = j := Option.some.inj (present.symm.trans again)
  exact (List.nodup_cons.mp (List.nodup_middle.mp h.valid.nodup)).1 other

theorem isSome_find? (h : c.Represents order l) (key : String) :
    (l.find? key).isSome = (c.index[key]?).isSome := by
  cases present : c.index[key]? with
  | none => rw [h.find?_absent present, Option.isSome_none, Option.isSome_none]
  | some i =>
    obtain ⟨_, _, es, fs, v, _, split, _, _, fresh⟩ := h.exists_entry present
    rw [RecencyList.find?, split, RecencyList.lookup_append_cons fresh, Option.isSome_some,
      Option.isSome_some]

theorem length_entries (h : c.Represents order l) : l.entries.length = c.slots.size := by
  have lengths := congrArg List.length h.entries
  rwa [List.length_map, List.length_map, h.valid.length_order, eq_comm] at lengths

theorem size_eq (h : c.Represents order l) : c.size = l.entries.length := by
  rw [size, h.valid.indexed.count, h.length_entries]

/-- The list of a cache after an entry was written has that entry in front. -/
theorem written (h : c.Represents order l) {d : BoundedCache β} {rest : List Nat} {value : β}
    {es : List (String × β)} (written : c.Written d i key value rest)
    (others : rest.map c.content? = es.map some) :
    d.Represents (i :: rest) { l with entries := (key, value) :: es } := by
  refine ⟨written.valid, ?_, h.capacity.trans written.capacity.symm⟩
  have kept : rest.map d.content? = rest.map c.content? := by
    refine List.map_congr_left fun j inside => ?_
    have ne_i : j ≠ i := fun same => (List.nodup_cons.mp written.valid.nodup).1 (same ▸ inside)
    rw [written.content, if_neg ne_i]
  rw [List.map_cons, List.map_cons, written.content, if_pos rfl, kept, others]

/-- A list loads what a cache that it represents does. -/
theorem load (h : c.Represents order l) (key : String) :
    (c.load key).1 = (l.load key).1 ∧ ∃ order', (c.load key).2.Represents order' (l.load key).2 := by
  cases present : c.index[key]? with
  | none =>
    simp only [BoundedCache.load, RecencyList.load, present, h.find?_absent present]
    exact ⟨trivial, order, h⟩
  | some i =>
    obtain ⟨xs, ys, es, fs, v, rfl, split, found, others, fresh⟩ := h.exists_entry present
    obtain ⟨d, loaded, written⟩ := h.valid.load_present found
    have listed : l.find? key = some v := by
      rw [RecencyList.find?, split, RecencyList.lookup_append_cons fresh]
    rw [loaded, RecencyList.load, listed, split]
    simp only [RecencyList.without_append_cons fresh]
    exact ⟨trivial, _, h.written written others⟩

/-- The oldest slot of a full cache holds the last entry of its list. -/
theorem exists_last (h : c.Represents order l) (full : ¬ c.slots.size < c.capacity) :
    ∃ xs i es old v, order = xs ++ [i] ∧ l.entries = es ++ [(old, v)] ∧
      c.content? i = some (old, v) ∧ xs.map c.content? = es.map some := by
  obtain ⟨xs, i, rfl, _⟩ := h.valid.exists_oldest full
  have entries := h.entries.symm
  rw [List.map_append, List.map_singleton, List.map_eq_append_iff] at entries
  obtain ⟨es, last, split, newer, oldest⟩ := entries
  obtain ⟨⟨old, v⟩, rfl, found⟩ := List.map_eq_singleton_iff.mp oldest
  exact ⟨xs, i, es, old, v, rfl, split, found.symm, newer.symm⟩

/-- A list drops what a cache that it represents does. -/
theorem store (h : c.Represents order l) (key : String) (value : β) :
    (c.store key value).2 = (l.store key value).2 ∧
      ∃ order', (c.store key value).1.Represents order' (l.store key value).1 := by
  have listed := h.isSome_find? key
  cases present : c.index[key]? with
  | some i =>
    obtain ⟨xs, ys, es, fs, v, rfl, split, found, others, fresh⟩ := h.exists_entry present
    obtain ⟨d, stored, written⟩ := h.valid.store_present found value
    rw [present, Option.isSome_some] at listed
    rw [stored, RecencyList.store, if_pos listed, split, RecencyList.without_append_cons fresh]
    exact ⟨rfl, _, h.written written others⟩
  | none =>
    rw [present, Option.isSome_none] at listed
    have absent : ¬ (l.find? key).isSome := by rw [listed]; exact Bool.false_ne_true
    have length := h.length_entries
    have capacity := h.capacity
    have fits := h.valid.indexed.fits
    rw [RecencyList.store, if_neg absent]
    by_cases free : c.slots.size < c.capacity
    · obtain ⟨d, stored, written⟩ := h.valid.store_grow present free value
      rw [stored, if_neg (by omega)]
      exact ⟨rfl, _, h.written written h.entries⟩
    · obtain ⟨xs, i, es, old, v, rfl, split, found, others⟩ := h.exists_last free
      obtain ⟨d, stored, written⟩ := h.valid.store_reuse found present free value
      rw [stored, if_pos (by omega), split, List.dropLast_concat, List.getLast?_concat]
      exact ⟨rfl, _, h.written written others⟩

end Represents

/-- A list and a cache that it represents answer alike, and the list represents the cache still. -/
theorem represents_respond (h : c.Represents order l) (request : CacheRequest β) :
    (c.respond request).1 = (l.respond request).1 ∧
      ∃ order', (c.respond request).2.Represents order' (l.respond request).2 := by
  cases request with
  | load key =>
    obtain ⟨same, after⟩ := h.load key
    exact ⟨congrArg CacheAnswer.found same, after⟩
  | store key value =>
    obtain ⟨same, order', after⟩ := h.store key value
    refine ⟨?_, order', after⟩
    simp only [respond, RecencyList.respond, QueryCache.store, same, after.capacity]
  | contains key =>
    refine ⟨congrArg CacheAnswer.truth ?_, order, h⟩
    rw [contains, Std.HashMap.contains_eq_isSome_getElem?, h.isSome_find?]
  | size => exact ⟨congrArg CacheAnswer.count h.size_eq, order, h⟩
  | isEmpty =>
    refine ⟨congrArg CacheAnswer.truth ?_, order, h⟩
    rw [isEmpty, Std.HashMap.isEmpty_eq_size_eq_zero, h.valid.indexed.count, ← h.length_entries,
      Bool.eq_iff_iff, beq_iff_eq, List.length_eq_zero_iff, List.isEmpty_iff]

/-- A list and a cache that it represents cannot be told apart by requests. -/
theorem represents_serve (requests : List (CacheRequest β)) :
    ∀ {c : BoundedCache β} {order : List Nat} {l : RecencyList β}, c.Represents order l →
      (CacheRequest.serve respond c requests).1 =
          (CacheRequest.serve RecencyList.respond l requests).1 ∧
        ∃ order', (CacheRequest.serve respond c requests).2.Represents order'
          (CacheRequest.serve RecencyList.respond l requests).2 := by
  induction requests with
  | nil => exact fun {_ order _} h => ⟨rfl, order, h⟩
  | cons request requests ih =>
    intro c order l h
    obtain ⟨same, order', after⟩ := represents_respond h request
    obtain ⟨rest, last⟩ := ih after
    exact ⟨congrArg₂ List.cons same rest, last⟩

/-- A new cache gives the answers of an empty recency list of its capacity, whatever is asked of it and
    in whichever order; among the answers are the events of entries that are dropped. -/
theorem answers_eq (capacity : Nat) (requests : List (CacheRequest β)) :
    (CacheRequest.serve respond (ofCapacity capacity) requests).1 =
      (CacheRequest.serve RecencyList.respond (.ofCapacity capacity) requests).1 :=
  (represents_serve requests (.ofCapacity capacity)).1

end RecordQuery.BoundedCache
