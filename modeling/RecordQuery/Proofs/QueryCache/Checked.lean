import RecordQuery.Proofs.QueryCache.Valid

/-!
# Checked accesses

The operations of a bounded cache once more, now with a result only if every slot that they read or change
is there and if a full cache has a slot to give away. On a valid cache they have a result, and it is that of
the unchecked operations (`Valid.load?_eq`, `Valid.store?_eq`). An operation passes through states that are
not valid; in all of them, though, the links lead to slots.
-/

namespace RecordQuery.BoundedCache

variable {β : Type} {c : BoundedCache β} {i : Nat} {order xs ys : List Nat}

/-- The cache with one slot changed. -/
def modifySlot? (c : BoundedCache β) (i : Nat) (f : Slot β → Slot β) : Option (BoundedCache β) :=
  if i < c.slots.size then some (c.modifySlot i f) else none

/-- The cache with a link from a place to a neighbour changed. -/
def setNext? (c : BoundedCache β) (way : Way) : Option Nat → Option Nat → Option (BoundedCache β)
  | none, b => some (c.setNext way none b)
  | some i, b => c.modifySlot? i (Slot.setLink way b)

/-- Take a slot out of the order of use. -/
def unlink? (c : BoundedCache β) (i : Nat) : Option (BoundedCache β) := do
  let slot ← c.slots[i]?
  let c ← c.setNext? .toOlder slot.newer slot.older
  let c ← c.setNext? .toNewer slot.older slot.newer
  c.modifySlot? i fun s => { s with newer := none, older := none }

/-- Put a slot that is out of the order of use at its newest end. -/
def pushNewest? (c : BoundedCache β) (i : Nat) : Option (BoundedCache β) := do
  let front := c.newest
  let c ← c.modifySlot? i fun s => { s with newer := none, older := front }
  let c ← match front with
    | some n => c.modifySlot? n fun s => { s with newer := some i }
    | none => some c
  return { c with newest := some i, oldest := c.oldest.or (some i) }

/-- Make a slot the newest. -/
def touch? (c : BoundedCache β) (i : Nat) : Option (BoundedCache β) :=
  if c.newest = some i then some c else do
    let c ← c.unlink? i
    c.pushNewest? i

/-- Look a key up; finding it is a use. -/
def load? (c : BoundedCache β) (key : String) : Option (Option β × BoundedCache β) :=
  match c.index[key]? with
  | none => some (none, c)
  | some i => do
    let c ← c.touch? i
    let slot ← c.slots[i]?
    return (some slot.value, c)

/-- Put a value under a key, and tell which key was dropped to make room. -/
def store? (c : BoundedCache β) (key : String) (value : β) : Option (BoundedCache β × Option String) :=
  match c.index[key]? with
  | some i => do
    let c ← c.modifySlot? i fun s => { s with value }
    let c ← c.touch? i
    return (c, none)
  | none =>
    if c.slots.size < c.capacity then do
      let c ← (c.grow key value).pushNewest? c.slots.size
      return (c, none)
    else do
      let i ← c.oldest
      let c ← c.unlink? i
      let slot ← c.slots[i]?
      let c ← c.modifySlot? i fun s => { s with key, value }
      let c := { c with index := (c.index.erase slot.key).insert key i }
      let c ← c.pushNewest? i
      return (c, some slot.key)

theorem modifySlot?_eq (stored : i < c.slots.size) (f : Slot β → Slot β) :
    c.modifySlot? i f = some (c.modifySlot i f) :=
  if_pos stored

theorem setNext?_eq {a : Option Nat} (place : c.IsPlace a) (way : Way) (b : Option Nat) :
    c.setNext? way a b = some (c.setNext way a b) := by
  cases a with
  | none => rfl
  | some i => exact modifySlot?_eq (isPlace_some.mp place) _

/-- A slot whose neighbours are there can be taken out. -/
theorem unlink?_eq {slot : Slot β} (found : c.slots[i]? = some slot)
    (places : ∀ way, c.IsPlace (slot.link way)) : c.unlink? i = some (c.unlink i) := by
  have stored : c.IsPlace (some i) := isPlace_some.mpr (Array.getElem?_eq_some_iff.mp found).1
  have newer : c.IsPlace slot.newer := places .toNewer
  have older : c.IsPlace slot.older := places .toOlder
  simp only [unlink?, found, Option.bind_eq_bind, Option.bind_some]
  rw [setNext?_eq newer, Option.bind_some, setNext?_eq (isPlace_setNext.mpr older), Option.bind_some,
    modifySlot?_eq, unlink_eq found, setNext_setNext_slot]
  rwa [← isPlace_some, isPlace_setNext, isPlace_setNext]

/-- A slot can be put in before a newest slot that is there. -/
theorem pushNewest?_eq (stored : i < c.slots.size) (place : c.IsPlace c.newest) :
    c.pushNewest? i = some (c.pushNewest i) := by
  simp only [pushNewest?, pushNewest, modifySlot?_eq stored, Option.bind_eq_bind, Option.bind_some]
  cases first : c.newest with
  | none => rfl
  | some n =>
    have there : n < (c.modifySlot i fun s => { s with newer := none, older := some n }).slots.size := by
      rw [modifySlot, Array.size_modify]
      exact place n first
    simp only [modifySlot?_eq there, Option.bind_some, Option.pure_def]

namespace Valid

theorem unlink?_eq (valid : c.Valid (xs ++ i :: ys)) : c.unlink? i = some (c.unlink i) := by
  obtain ⟨slot, found, older, newer⟩ := valid.exists_neighbours
  refine BoundedCache.unlink?_eq found fun way j linked => (valid.stored j).mp ?_
  cases way with
  | toOlder =>
    have next : ys.head? = some j := older.symm.trans linked
    exact List.mem_append_right xs (List.mem_cons_of_mem i (List.mem_of_mem_head? next))
  | toNewer =>
    have next : xs.getLast? = some j := newer.symm.trans linked
    exact List.mem_append_left _ (List.mem_of_mem_getLast? next)

/-- The slot that is the newest after one was taken out is there. -/
theorem isPlace_newest_unlink (valid : c.Valid (xs ++ i :: ys)) :
    (c.unlink i).IsPlace (c.unlink i).newest := by
  have unlinked := valid.linked.unlink valid.nodup fun j => (valid.stored j).mp
  refine unlinked.isPlace_newest fun j inside => ?_
  rw [(relinks_unlink c i).size, ← valid.stored]
  exact List.perm_middle.mem_iff.mpr (List.mem_cons_of_mem i inside)

theorem touch?_eq (valid : c.Valid (xs ++ i :: ys)) : c.touch? i = some (c.touch i) := by
  rw [touch?, touch]
  by_cases first : c.newest = some i
  · rw [if_pos first, if_pos first]
  · have stored : i < (c.unlink i).slots.size := by
      rw [(relinks_unlink c i).size, ← valid.stored]
      simp
    rw [if_neg first, if_neg first, Option.bind_eq_bind, valid.unlink?_eq, Option.bind_some,
      pushNewest?_eq stored valid.isPlace_newest_unlink]

theorem load?_eq (valid : c.Valid order) (key : String) : c.load? key = some (c.load key) := by
  rw [load?, load]
  cases present : c.index[key]? with
  | none => rfl
  | some i =>
    obtain ⟨xs, ys, v, rfl, _⟩ := valid.exists_slot present
    obtain ⟨relinks, _⟩ := valid.linked.touch valid.nodup fun j => (valid.stored j).mp
    have stored : i < (c.touch i).slots.size := by
      rw [relinks.size, ← valid.stored]
      simp
    simp only [valid.touch?_eq, Array.getElem?_eq_getElem stored, Option.bind_eq_bind,
      Option.bind_some, Option.map_some, Option.pure_def]

theorem store?_eq (valid : c.Valid order) (key : String) (value : β) :
    c.store? key value = some (c.store key value) := by
  rw [store?, store]
  cases present : c.index[key]? with
  | some i =>
    obtain ⟨xs, ys, v, rfl, found⟩ := valid.exists_slot present
    have stored : i < c.slots.size := exists_content?.mp ⟨_, found⟩
    have touched := (valid.setValue found value).touch?_eq
    rw [BoundedCache.setValue] at touched
    simp only [modifySlot?_eq stored, touched, Option.bind_eq_bind, Option.bind_some, Option.pure_def]
  | none =>
    by_cases free : c.slots.size < c.capacity
    · have size : (c.grow key value).slots.size = c.slots.size + 1 := Array.size_push _
      have place : (c.grow key value).IsPlace c.newest := by
        intro j first
        rw [size]
        exact Nat.lt_succ_of_lt (valid.linked.isPlace_newest (fun j => (valid.stored j).mp) j first)
      have pushed : (c.grow key value).pushNewest? c.slots.size =
          some ((c.grow key value).pushNewest c.slots.size) :=
        pushNewest?_eq (size ▸ Nat.lt_succ_self c.slots.size) place
      simp only [if_pos free, pushed, Option.bind_eq_bind, Option.bind_some, Option.pure_def]
      rfl
    · obtain ⟨xs, i, rfl, oldest⟩ := valid.exists_oldest free
      have stored : i < (c.unlink i).slots.size := by
        rw [(relinks_unlink c i).size, ← valid.stored]
        simp
      have pushed : ∀ old, ((c.unlink i).reuse i old key value).pushNewest? i =
          some (((c.unlink i).reuse i old key value).pushNewest i) := by
        intro old
        have size : ((c.unlink i).reuse i old key value).slots.size = (c.unlink i).slots.size :=
          Array.size_modify
        refine pushNewest?_eq (size ▸ stored) fun j first => ?_
        rw [size]
        exact valid.isPlace_newest_unlink j first
      simp only [if_neg free, oldest, valid.unlink?_eq, Array.getElem?_eq_getElem stored,
        modifySlot?_eq stored, Option.bind_eq_bind, Option.bind_some, Option.pure_def]
      exact congrArg (Option.bind · _) (pushed _)

end Valid

end RecordQuery.BoundedCache
