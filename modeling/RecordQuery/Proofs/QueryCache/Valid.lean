import Mathlib.Data.List.Perm.Basic
import RecordQuery.Proofs.QueryCache.OrderOfUse
import Std.Data.HashMap.Lemmas

/-!
# Valid caches

A cache is valid if its index finds the slot of each key and its ring goes through each slot once.
Every operation on a valid cache leaves it valid: a use moves a slot to the newest end, and a new entry
gets either a new slot or the oldest one.
-/

namespace RecordQuery.BoundedCache

variable {β : Type} {c d : BoundedCache β} {i : Nat} {order xs ys : List Nat} {key old : String}
  {value : β}

/-- The index finds exactly the keys that are in the slots, and there is room for all slots. -/
structure Indexed (c : BoundedCache β) : Prop where
  finds : ∀ key i, c.index[key]? = some i ↔ ∃ value, c.content? i = some (key, value)
  count : c.index.size = c.slots.size
  fits : c.slots.size ≤ c.capacity
  room : 0 < c.capacity

/-- The ring goes once through each slot, in the given order, and the index fits the slots. -/
structure Valid (c : BoundedCache β) (order : List Nat) : Prop where
  linked : c.Linked order
  nodup : order.Nodup
  stored : ∀ i, i ∈ order ↔ i < c.slots.size
  indexed : c.Indexed

theorem Relinks.indexed (relinks : c.Relinks d) (indexed : c.Indexed) : d.Indexed := by
  obtain ⟨finds, count, fits, room⟩ := indexed
  refine ⟨fun key i => ?_, ?_, ?_, ?_⟩
  · rw [relinks.index, relinks.content, finds]
  · rw [relinks.index, relinks.size, count]
  · rwa [relinks.size, relinks.capacity]
  · rwa [relinks.capacity]

theorem exists_slot_of_lt (stored : i < c.slots.size) : ∃ s : Slot β, c.slots[i]? = some s :=
  ⟨_, Array.getElem?_eq_getElem stored⟩

theorem exists_content? : (∃ e, c.content? i = some e) ↔ i < c.slots.size := by
  rw [← Option.isSome_iff_exists, content?, Option.isSome_map, isSome_getElem?]

theorem Linked.congr (linked : c.Linked order) (same : ∀ way p, d.next way p = c.next way p) :
    d.Linked order :=
  chain_congr linked (fun a _ => same .toOlder a) (fun b _ => same .toNewer b)

/-- A change of keys and values leaves the ring as it is. -/
theorem Linked.modifySlot (linked : c.Linked order) (i : Nat) {f : Slot β → Slot β}
    (links : ∀ way s, (f s).link way = s.link way) : (c.modifySlot i f).Linked order := by
  refine linked.congr fun way p => ?_
  cases p with
  | none => rfl
  | some j =>
    rw [next_modifySlot]
    simp only [links]
    exact ite_self _

/-- The cache with another value in a slot. -/
def setValue (c : BoundedCache β) (i : Nat) (value : β) : BoundedCache β :=
  c.modifySlot i fun s => { s with value }

/-- The cache with an entry in a new slot that is out of the ring. -/
def grow (c : BoundedCache β) (key : String) (value : β) : BoundedCache β :=
  { c with slots := c.slots.push { key, value }, index := c.index.insert key c.slots.size }

/-- The cache with an entry in the slot of another key. -/
def reuse (c : BoundedCache β) (i : Nat) (old key : String) (value : β) : BoundedCache β :=
  { c.modifySlot i fun s => { s with key, value } with
    index := (c.index.erase old).insert key i }

theorem Linked.grow (linked : c.Linked order) : (c.grow key value).Linked order := by
  refine linked.congr fun way p => ?_
  cases p with
  | none => rfl
  | some j =>
    rw [next, BoundedCache.grow, Array.getElem?_push]
    by_cases new : j = c.slots.size
    · -- the new slot has no links, and there was no slot before
      rw [if_pos new, next, new, Array.getElem?_size]
      cases way <;> rfl
    · rw [if_neg new, next]

theorem Linked.reuse (linked : c.Linked order) (i : Nat) (old key : String) (value : β) :
    (c.reuse i old key value).Linked order := by
  have written := linked.modifySlot i (f := fun s => { s with key, value })
    fun way s => by cases way <;> rfl
  refine written.congr fun way p => ?_
  cases p <;> rfl

theorem content?_setValue {v : β} (found : c.content? i = some (key, v)) (value : β) (j : Nat) :
    (c.setValue i value).content? j = if j = i then some (key, value) else c.content? j := by
  rw [setValue, content?_modifySlot]
  by_cases same : j = i
  · obtain ⟨s, slot, pair⟩ := Option.map_eq_some_iff.mp found
    rw [if_pos same, if_pos same, same, slot, Option.map_some, (Prod.mk.inj pair).1]
  · rw [if_neg same, if_neg same]

theorem content?_grow (c : BoundedCache β) (key : String) (value : β) (j : Nat) :
    (c.grow key value).content? j = if j = c.slots.size then some (key, value) else c.content? j := by
  rw [content?, grow, Array.getElem?_push]
  by_cases new : j = c.slots.size
  · rw [if_pos new, if_pos new, Option.map_some]
  · rw [if_neg new, if_neg new, content?]

theorem content?_reuse (stored : i < c.slots.size) (old key : String) (value : β) (j : Nat) :
    (c.reuse i old key value).content? j = if j = i then some (key, value) else c.content? j := by
  have contents := content?_modifySlot c i j fun s => { s with key, value }
  by_cases same : j = i
  · rw [if_pos same, same, Array.getElem?_eq_getElem stored] at contents
    rw [if_pos same, same]
    exact contents
  · rw [if_neg same] at contents
    rw [if_neg same]
    exact contents

/-- Which key the entry in a slot is found under. -/
theorem Indexed.finds_entry (indexed : c.Indexed) {v : β} (found : c.content? i = some (old, v))
    (key : String) : c.index[key]? = some i ↔ old = key := by
  rw [indexed.finds, found]
  simp

/-- The index does not change when a value does. -/
theorem Indexed.setValue {v : β} (indexed : c.Indexed) (found : c.content? i = some (key, v))
    (value : β) : (c.setValue i value).Indexed := by
  have size : (c.setValue i value).slots.size = c.slots.size := Array.size_modify
  refine ⟨fun k j => ?_, ?_, ?_, indexed.room⟩
  · rw [content?_setValue found]
    by_cases same : j = i
    · rw [if_pos same, same]
      refine (indexed.finds_entry found k).trans ?_
      simp
    · rw [if_neg same]
      exact indexed.finds k j
  · rw [size]
    exact indexed.count
  · rw [size]
    exact indexed.fits

/-- What is found in an index after a new key was put in for a slot without one. -/
theorem getElem?_insert_eq_some_iff {index : Std.HashMap String Nat} (absent : index[key]? = none)
    (unused : ∀ k : String, index[k]? ≠ some i) (k : String) (j : Nat) :
    (index.insert key i)[k]? = some j ↔ if j = i then key = k else index[k]? = some j := by
  rw [Std.HashMap.getElem?_insert]
  by_cases same : key = k
  · subst same
    rw [if_pos (beq_self_eq_true key), absent]
    by_cases here : j = i
    · simp [here]
    · simp [here, Ne.symm here]
  · rw [if_neg (by simpa using same)]
    by_cases here : j = i
    · simp [here, same, unused k]
    · simp [here]

/-- A new slot is found under its key. -/
theorem Indexed.grow (indexed : c.Indexed) (absent : c.index[key]? = none)
    (free : c.slots.size < c.capacity) (value : β) : (c.grow key value).Indexed := by
  have size : (c.grow key value).slots.size = c.slots.size + 1 := Array.size_push _
  have index : (c.grow key value).index = c.index.insert key c.slots.size := rfl
  have unused : ∀ k : String, c.index[k]? ≠ some c.slots.size := by
    intro k present
    obtain ⟨v, found⟩ := (indexed.finds k _).mp present
    exact absurd (exists_content?.mp ⟨_, found⟩) (Nat.lt_irrefl _)
  refine ⟨fun k j => ?_, ?_, ?_, indexed.room⟩
  · rw [content?_grow, index, getElem?_insert_eq_some_iff absent unused]
    by_cases new : j = c.slots.size
    · rw [if_pos new, if_pos new]
      simp
    · rw [if_neg new, if_neg new]
      exact indexed.finds k j
  · rw [size, index, Std.HashMap.size_insert, if_neg, indexed.count]
    rw [Std.HashMap.mem_iff_isSome_getElem?, absent]
    exact Bool.false_ne_true
  · rw [size]
    exact free

/-- A slot that gets another entry is found under its new key only. -/
theorem Indexed.reuse {v : β} (indexed : c.Indexed) (absent : c.index[key]? = none)
    (found : c.content? i = some (old, v)) (value : β) : (c.reuse i old key value).Indexed := by
  have size : (c.reuse i old key value).slots.size = c.slots.size := Array.size_modify
  have index : (c.reuse i old key value).index = (c.index.erase old).insert key i := rfl
  have stored : i < c.slots.size := exists_content?.mp ⟨_, found⟩
  have present : c.index[old]? = some i := (indexed.finds_entry found old).mpr rfl
  have erased : ∀ k : String, (c.index.erase old)[k]? = if old = k then none else c.index[k]? := by
    intro k
    rw [Std.HashMap.getElem?_erase]
    simp only [beq_iff_eq]
  have absent' : (c.index.erase old)[key]? = none := by
    rw [erased, absent, ite_self]
  have unused : ∀ k : String, (c.index.erase old)[k]? ≠ some i := by
    intro k
    rw [erased]
    by_cases same : old = k
    · rw [if_pos same]
      exact nofun
    · rw [if_neg same]
      exact fun other => same ((indexed.finds_entry found k).mp other)
  refine ⟨fun k j => ?_, ?_, ?_, indexed.room⟩
  · rw [content?_reuse stored, index, getElem?_insert_eq_some_iff absent' unused]
    by_cases here : j = i
    · rw [if_pos here, if_pos here]
      simp
    · rw [if_neg here, if_neg here, erased, ← indexed.finds]
      by_cases same : old = k
      · subst same
        simp [present, Ne.symm here]
      · rw [if_neg same]
  · rw [size, index, Std.HashMap.size_insert, if_neg, Std.HashMap.size_erase, if_pos, indexed.count]
    · omega
    · rw [Std.HashMap.mem_iff_isSome_getElem?, present, Option.isSome_some]
    · rw [Std.HashMap.mem_iff_isSome_getElem?, absent']
      exact Bool.false_ne_true
  · rw [size]
    exact indexed.fits

namespace Valid

theorem perm_order (valid : c.Valid order) : order.Perm (List.range c.slots.size) := by
  refine (List.perm_ext_iff_of_nodup valid.nodup List.nodup_range).mpr fun i => ?_
  rw [valid.stored, List.mem_range]

theorem length_order (valid : c.Valid order) : order.length = c.slots.size := by
  rw [valid.perm_order.length_eq, List.length_range]

/-- A new cache is valid, without any slots. -/
theorem ofCapacity (capacity : Nat) : (ofCapacity capacity : BoundedCache β).Valid [] := by
  refine ⟨.cons_cons ⟨rfl, rfl⟩ (.singleton none), .nil, fun i => ?_, fun key i => ?_, rfl, ?_, ?_⟩
  · simp [BoundedCache.ofCapacity]
  · simp [BoundedCache.ofCapacity, content?]
  · exact Nat.zero_le _
  · exact Nat.le_max_right capacity 1

/-- A slot of the order names its neighbours there. -/
theorem exists_neighbours (valid : c.Valid (xs ++ i :: ys)) :
    ∃ s, c.slots[i]? = some s ∧ s.older = ys.head? ∧ s.newer = xs.getLast? := by
  obtain ⟨s, found⟩ := exists_slot_of_lt ((valid.stored i).mp (by simp))
  obtain ⟨older, newer⟩ := valid.linked.neighbours
  rw [next, found, Option.bind_some] at older newer
  exact ⟨s, found, older, newer⟩

/-- A valid cache stays so, with the same order of use, when the value in a slot is changed. -/
theorem setValue {v : β} (valid : c.Valid order) (found : c.content? i = some (key, v)) (value : β) :
    (c.setValue i value).Valid order := by
  refine ⟨?_, valid.nodup, fun j => ?_, valid.indexed.setValue found value⟩
  · exact valid.linked.modifySlot i fun way s => by cases way <;> rfl
  · rw [valid.stored, BoundedCache.setValue, modifySlot, Array.size_modify]

/-- A full cache has an oldest slot. -/
theorem exists_oldest (valid : c.Valid order) (full : ¬ c.slots.size < c.capacity) :
    ∃ xs i, order = xs ++ [i] ∧ c.oldest = some i := by
  have length := valid.length_order
  have room := valid.indexed.room
  rcases List.eq_nil_or_concat order with rfl | ⟨xs, i, rfl⟩
  · rw [List.length_nil] at length
    omega
  · rw [valid.linked.ends.2, List.concat_eq_append, List.getLast?_concat]
    exact ⟨xs, i, rfl, rfl⟩

/-- The slot of a key that is found has its place in the order. -/
theorem exists_slot (valid : c.Valid order) (present : c.index[key]? = some i) :
    ∃ xs ys v, order = xs ++ i :: ys ∧ c.content? i = some (key, v) := by
  obtain ⟨v, found⟩ := (valid.indexed.finds key i).mp present
  have inside : i ∈ order := (valid.stored i).mpr (exists_content?.mp ⟨_, found⟩)
  obtain ⟨xs, ys, split⟩ := List.append_of_mem inside
  exact ⟨xs, ys, v, split, found⟩

end Valid

/-- A cache `d` that has come from `c` by writing an entry into a slot and making that slot the newest,
    before those of `rest`. -/
structure Written (c d : BoundedCache β) (i : Nat) (key : String) (value : β) (rest : List Nat) :
    Prop where
  valid : d.Valid (i :: rest)
  capacity : d.capacity = c.capacity
  content : ∀ j, d.content? j = if j = i then some (key, value) else c.content? j

/-- An entry is written by putting it into a slot in the ring that is used then. -/
theorem Written.touch (valid : d.Valid (xs ++ i :: ys)) (capacity : d.capacity = c.capacity)
    (content : ∀ j, d.content? j = if j = i then some (key, value) else c.content? j) :
    c.Written (d.touch i) i key value (xs ++ ys) := by
  obtain ⟨relinks, linked⟩ := valid.linked.touch valid.nodup fun j => (valid.stored j).mp
  refine ⟨⟨linked, List.nodup_middle.mp valid.nodup, fun j => ?_, relinks.indexed valid.indexed⟩,
    relinks.capacity.trans capacity, fun j => (relinks.content j).trans (content j)⟩
  rw [relinks.size, ← valid.stored]
  exact List.perm_middle.symm.mem_iff

/-- An entry is written by putting it into the only slot out of the ring and the slot into the ring. -/
theorem Written.pushNewest (linked : d.Linked order) (nodup : (i :: order).Nodup)
    (stored : ∀ j, j ∈ i :: order ↔ j < d.slots.size) (indexed : d.Indexed)
    (capacity : d.capacity = c.capacity)
    (content : ∀ j, d.content? j = if j = i then some (key, value) else c.content? j) :
    c.Written (d.pushNewest i) i key value order := by
  have relinks := relinks_pushNewest linked i
  refine ⟨⟨linked.pushNewest nodup fun j => (stored j).mp, nodup, fun j => ?_,
    relinks.indexed indexed⟩, relinks.capacity.trans capacity,
    fun j => (relinks.content j).trans (content j)⟩
  rw [relinks.size]
  exact stored j

namespace Valid

/-- To load a key that is found is a use of its slot. -/
theorem load_present (valid : c.Valid (xs ++ i :: ys)) (found : c.content? i = some (key, value)) :
    ∃ d, c.load key = (some value, d) ∧ c.Written d i key value (xs ++ ys) := by
  have present : c.index[key]? = some i := (valid.indexed.finds_entry found key).mpr rfl
  have written : c.Written (c.touch i) i key value (xs ++ ys) := by
    refine .touch valid rfl fun j => ?_
    by_cases same : j = i
    · rw [if_pos same, same, found]
    · rw [if_neg same]
  have here : (c.touch i).slots[i]?.map Slot.value = some value := by
    have content := written.content i
    rw [if_pos rfl] at content
    obtain ⟨slot, there, pair⟩ := Option.map_eq_some_iff.mp content
    rw [there, Option.map_some, (Prod.mk.inj pair).2]
  exact ⟨_, by simp only [load, present, here], written⟩

/-- To store under a key that is found changes the value in its slot, which is used. -/
theorem store_present (valid : c.Valid (xs ++ i :: ys)) {v : β}
    (found : c.content? i = some (key, v)) (value : β) :
    ∃ d, c.store key value = (d, none) ∧ c.Written d i key value (xs ++ ys) := by
  have present : c.index[key]? = some i := (valid.indexed.finds_entry found key).mpr rfl
  refine ⟨(c.setValue i value).touch i, ?_,
    .touch (valid.setValue found value) rfl (content?_setValue found value)⟩
  rw [store, present]
  rfl

/-- To store under a new key takes a new slot if there is room. -/
theorem store_grow (valid : c.Valid order) (absent : c.index[key]? = none)
    (free : c.slots.size < c.capacity) (value : β) :
    ∃ d, c.store key value = (d, none) ∧ c.Written d c.slots.size key value order := by
  have size : (c.grow key value).slots.size = c.slots.size + 1 := Array.size_push _
  have unused : c.slots.size ∉ order := fun inside =>
    Nat.lt_irrefl _ ((valid.stored _).mp inside)
  refine ⟨(c.grow key value).pushNewest c.slots.size, ?_, .pushNewest valid.linked.grow ?_ ?_
    (valid.indexed.grow absent free value) rfl (content?_grow c key value)⟩
  · simp only [store, absent, if_pos free]
    rfl
  · exact List.nodup_cons.mpr ⟨unused, valid.nodup⟩
  · intro j
    rw [List.mem_cons, valid.stored, size]
    omega

/-- To store under a new key takes the oldest slot if there is no room. -/
theorem store_reuse (valid : c.Valid (xs ++ [i])) {v : β} (found : c.content? i = some (old, v))
    (absent : c.index[key]? = none) (full : ¬ c.slots.size < c.capacity) (value : β) :
    ∃ d, c.store key value = (d, some old) ∧ c.Written d i key value xs := by
  have relinks := relinks_unlink c i
  have size : ((c.unlink i).reuse i old key value).slots.size = c.slots.size :=
    Array.size_modify.trans relinks.size
  have stored : i < (c.unlink i).slots.size :=
    relinks.size ▸ (valid.stored i).mp (List.mem_append_right xs (List.mem_singleton_self i))
  have found' : (c.unlink i).content? i = some (old, v) := (relinks.content i).trans found
  have unlinked : (c.unlink i).Linked xs := by
    simpa using valid.linked.unlink valid.nodup fun j => (valid.stored j).mp
  refine ⟨((c.unlink i).reuse i old key value).pushNewest i, ?_,
    .pushNewest (unlinked.reuse i old key value) ?_ ?_
      ((relinks.indexed valid.indexed).reuse (relinks.index ▸ absent) found' value)
      relinks.capacity fun j => ?_⟩
  · obtain ⟨slot, here, pair⟩ := Option.map_eq_some_iff.mp found'
    obtain ⟨rfl, _⟩ := Prod.mk.inj pair
    have oldest : c.oldest = some i := by rw [valid.linked.ends.2, List.getLast?_concat]
    simp only [store, absent, if_neg full, oldest, here]
    rfl
  · exact (List.perm_append_singleton i xs).nodup_iff.mp valid.nodup
  · intro j
    rw [size, ← valid.stored]
    exact (List.perm_append_singleton i xs).symm.mem_iff
  · rw [content?_reuse stored, relinks.content]

end Valid

end RecordQuery.BoundedCache
