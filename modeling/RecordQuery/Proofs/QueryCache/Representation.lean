import RecordQuery.Proofs.QueryCache.Checked
import RecordQuery.Proofs.QueryCache.Contents
import RecordQuery.Proofs.QueryCache.History

/-!
# How a bounded cache is represented

What holds of the slots, the index and the links of a bounded cache, whatever has been asked of it: each
key is found in its own slot, and the links lead through all slots once, forwards and backwards
(`sound_after_requests`). It is read off the cache's order of use (`Valid.sound`).
-/

namespace RecordQuery.BoundedCache

variable {β : Type} {c : BoundedCache β} {order : List Nat}

/-- The links of a way lead from a place through the given slots, one after another, and end there. -/
inductive Visits (c : BoundedCache β) (way : Way) : Option Nat → List Nat → Prop
  | done : Visits c way none []
  | slot {i : Nat} {s : Slot β} {visited : List Nat} (found : c.slots[i]? = some s)
      (rest : Visits c way (s.link way) visited) : Visits c way (some i) (i :: visited)

/-- The parts of a cache of at most `limit` entries fit together. -/
structure Sound (c : BoundedCache β) (limit : Nat) : Prop where
  fits : c.slots.size ≤ limit
  /-- The index has an entry for each slot, and no others. -/
  count : c.index.size = c.slots.size
  indexed : ∀ (i : Nat) (s : Slot β), c.slots[i]? = some s → c.index[s.key]? = some i
  entered : ∀ (key : String) (i : Nat), c.index[key]? = some i →
    ∃ s : Slot β, c.slots[i]? = some s ∧ s.key = key
  distinct : ∀ (i j : Nat) (s t : Slot β), c.slots[i]? = some s → c.slots[j]? = some t →
    s.key = t.key → i = j
  /-- The way from the newest slot leads through each slot once and ends at the oldest one, and the way
      back leads through them in the opposite order. -/
  linked : ∃ order : List Nat, order.Perm (List.range c.slots.size) ∧
    c.Visits .toOlder c.newest order ∧ order.getLast? = c.oldest ∧
    c.Visits .toNewer c.oldest order.reverse
  newer_newest : ∀ i, c.newest = some i → ∃ s : Slot β, c.slots[i]? = some s ∧ s.newer = none
  older_oldest : ∀ i, c.oldest = some i → ∃ s : Slot β, c.slots[i]? = some s ∧ s.older = none
  newest_eq_none : c.newest = none ↔ c.slots.size = 0
  oldest_eq_none : c.oldest = none ↔ c.slots.size = 0

/-- Slots that are each linked with the next one are visited in their order. -/
theorem visits_of_next {way : Way} {visited : List Nat} (stored : ∀ i ∈ visited, i < c.slots.size)
    (next : ∀ xs i ys, visited = xs ++ i :: ys → c.next way (some i) = ys.head?) :
    c.Visits way visited.head? visited := by
  induction visited with
  | nil => exact .done
  | cons i visited ih =>
    obtain ⟨here, later⟩ := List.forall_mem_cons.mp stored
    obtain ⟨s, found⟩ := exists_slot_of_lt here
    have linked := next [] i visited rfl
    rw [BoundedCache.next, found, Option.bind_some] at linked
    refine .slot found ?_
    rw [linked]
    refine ih later fun xs j ys split => next (i :: xs) j ys ?_
    rw [split, List.cons_append]

namespace Valid

/-- The links lead through the order of use, in both directions. -/
theorem visits (valid : c.Valid order) :
    c.Visits .toOlder c.newest order ∧ c.Visits .toNewer c.oldest order.reverse := by
  have stored : ∀ i ∈ order, i < c.slots.size := fun i => (valid.stored i).mp
  rw [valid.linked.ends.1, valid.linked.ends.2, ← List.head?_reverse]
  constructor
  · refine visits_of_next stored fun xs i ys split => ?_
    subst split
    exact valid.linked.neighbours.1
  · refine visits_of_next (fun i inside => stored i (List.mem_reverse.mp inside)) fun xs i ys split => ?_
    obtain rfl : order = ys.reverse ++ i :: xs.reverse := by
      rw [← List.reverse_reverse order, split]
      simp
    rw [valid.linked.neighbours.2, List.getLast?_reverse]

theorem sound (valid : c.Valid order) : c.Sound c.capacity := by
  have visits := valid.visits
  have finds : ∀ (i : Nat) (s : Slot β), c.slots[i]? = some s → c.index[s.key]? = some i := by
    intro i s found
    exact (valid.indexed.finds s.key i).mpr ⟨s.value, by rw [content?, found, Option.map_some]⟩
  have empty : order = [] ↔ c.slots.size = 0 := by
    rw [← valid.length_order, List.length_eq_zero_iff]
  exact {
    fits := valid.indexed.fits
    count := valid.indexed.count
    indexed := finds
    entered := by
      intro key i present
      obtain ⟨v, found⟩ := (valid.indexed.finds key i).mp present
      obtain ⟨s, there, pair⟩ := Option.map_eq_some_iff.mp found
      exact ⟨s, there, (Prod.mk.inj pair).1⟩
    distinct := by
      intro i j s t first second same
      have here := finds i s first
      rw [same, finds j t second] at here
      exact (Option.some.inj here).symm
    linked := ⟨order, valid.perm_order, visits.1, valid.linked.ends.2.symm, visits.2⟩
    newer_newest := by
      intro i first
      rw [valid.linked.ends.1, List.head?_eq_some_iff] at first
      obtain ⟨ys, rfl⟩ := first
      have here : c.Valid ([] ++ i :: ys) := valid
      obtain ⟨s, found, _, newer⟩ := here.exists_neighbours
      exact ⟨s, found, newer⟩
    older_oldest := by
      intro i last
      rw [valid.linked.ends.2, List.getLast?_eq_some_iff] at last
      obtain ⟨xs, rfl⟩ := last
      obtain ⟨s, found, older, _⟩ := valid.exists_neighbours
      exact ⟨s, found, older⟩
    newest_eq_none := by rw [valid.linked.ends.1, List.head?_eq_none_iff, empty]
    oldest_eq_none := by rw [valid.linked.ends.2, List.getLast?_eq_none_iff, empty] }

end Valid

/-- After any requests to a new cache, its parts fit together. No operation on it accesses a slot that is
    not there, a full cache has a slot to give away, and what is stored can be loaded then. -/
theorem sound_after_requests (capacity : Nat) (requests : List (CacheRequest β)) :
    let c := (CacheRequest.serve respond (ofCapacity capacity) requests).2
    c.Sound (max capacity 1) ∧
    (∀ key, c.load? key = some (c.load key)) ∧
    (c.slots.size = max capacity 1 → ∃ i s, c.oldest = some i ∧ c.slots[i]? = some s) ∧
    ∀ key value, c.store? key value = some (c.store key value) ∧
      ((c.store key value).1.load key).1 = some value := by
  obtain ⟨_, order, represents⟩ := represents_serve requests (.ofCapacity capacity)
  have follows := RecencyList.Follows.serve requests (.ofCapacity capacity)
  intro c
  have valid : c.Valid order := represents.valid
  have limit : c.capacity = max capacity 1 := represents.capacity.symm.trans follows.capacity
  refine ⟨limit ▸ valid.sound, valid.load?_eq, fun full => ?_, fun key value => ?_⟩
  · obtain ⟨xs, i, rfl, oldest⟩ := valid.exists_oldest (by omega)
    obtain ⟨s, found, _⟩ := valid.exists_neighbours
    exact ⟨i, s, oldest, found⟩
  · have kept : (QueryCache.bounded c).Valid := ⟨order, _, represents⟩
    exact ⟨valid.store?_eq key value, (kept.store key value).2.1⟩

end RecordQuery.BoundedCache
