import Mathlib.Data.List.Chain
import Mathlib.Data.List.Nodup
import Mathlib.Data.Option.Basic
import RecordQuery.QueryCache.Bounded

/-!
# The order of use

The slots of a bounded cache form a ring: from the cache itself to the newest slot, from each slot to
the next older one, and from the oldest slot back to the cache. A place in the ring is a slot, or `none`
for the cache. Taking a slot out of the ring and putting one in at the newest end are changes of four
links, which leave all other links and the contents of the slots as they are.
-/

namespace RecordQuery

/-- The two ways through the ring. -/
inductive Way where
  | toOlder
  | toNewer
deriving DecidableEq, Repr

/-- The way in the other direction. -/
def Way.back : Way → Way
  | toOlder => toNewer
  | toNewer => toOlder

namespace Slot

variable {β : Type}

/-- The neighbour of a slot on a way. -/
def link (way : Way) (s : Slot β) : Option Nat :=
  match way with
  | .toOlder => s.older
  | .toNewer => s.newer

/-- The slot with another neighbour on a way. -/
def setLink (way : Way) (p : Option Nat) (s : Slot β) : Slot β :=
  match way with
  | .toOlder => { s with older := p }
  | .toNewer => { s with newer := p }

theorem link_setLink (way other : Way) (p : Option Nat) (s : Slot β) :
    (s.setLink way p).link other = if other = way then p else s.link other := by
  cases way <;> cases other <;> rfl

end Slot

namespace BoundedCache

variable {β : Type} {c d : BoundedCache β} {i : Nat} {order xs ys : List Nat} {way : Way}

/-- The key and the value in a slot. -/
def content? (c : BoundedCache β) (i : Nat) : Option (String × β) :=
  c.slots[i]?.map fun s => (s.key, s.value)

/-- The place after another one on a way. -/
def next (c : BoundedCache β) (way : Way) : Option Nat → Option Nat
  | none =>
    match way with
    | .toOlder => c.newest
    | .toNewer => c.oldest
  | some i => c.slots[i]?.bind (Slot.link way)

/-- Two places name each other. -/
def Adjacent (c : BoundedCache β) (a b : Option Nat) : Prop :=
  c.next .toOlder a = b ∧ c.next .toNewer b = a

/-- The slots of the ring, from the newest to the oldest. -/
def Linked (c : BoundedCache β) (order : List Nat) : Prop :=
  (none :: (order.map some ++ [none])).IsChain c.Adjacent

/-- A cache with other links, but the same entries in the same slots. -/
structure Relinks (c d : BoundedCache β) : Prop where
  capacity : d.capacity = c.capacity
  index : d.index = c.index
  size : d.slots.size = c.slots.size
  content : ∀ i, d.content? i = c.content? i

/-- The cache with a link from a place to a neighbour changed. -/
def setNext (c : BoundedCache β) (way : Way) (a b : Option Nat) : BoundedCache β :=
  match a with
  | none =>
    match way with
    | .toOlder => { c with newest := b }
    | .toNewer => { c with oldest := b }
  | some i => c.modifySlot i (Slot.setLink way b)

/-- A slot of the cache, or the cache itself. -/
def IsPlace (c : BoundedCache β) (a : Option Nat) : Prop :=
  ∀ i ∈ a, i < c.slots.size

theorem Relinks.refl (c : BoundedCache β) : c.Relinks c :=
  ⟨rfl, rfl, rfl, fun _ => rfl⟩

theorem Relinks.trans {e : BoundedCache β} (first : c.Relinks d) (second : d.Relinks e) :
    c.Relinks e :=
  ⟨second.capacity.trans first.capacity, second.index.trans first.index,
    second.size.trans first.size, fun i => (second.content i).trans (first.content i)⟩

theorem content?_modifySlot (c : BoundedCache β) (i j : Nat) (f : Slot β → Slot β) :
    (c.modifySlot i f).content? j =
      if j = i then c.slots[j]?.map fun s => ((f s).key, (f s).value) else c.content? j := by
  rw [content?, modifySlot, Array.getElem?_modify]
  by_cases same : j = i
  · rw [if_pos same.symm, if_pos same, Option.map_map]
    rfl
  · rw [if_neg (Ne.symm same), if_neg same]
    rfl

theorem relinks_setNext (c : BoundedCache β) (way : Way) (a b : Option Nat) :
    c.Relinks (c.setNext way a b) := by
  cases a with
  | none => cases way <;> exact ⟨rfl, rfl, rfl, fun _ => rfl⟩
  | some i =>
    refine ⟨rfl, rfl, Array.size_modify, fun j => ?_⟩
    have kept : ∀ s : Slot β, ((s.setLink way b).key, (s.setLink way b).value) =
        (s.key, s.value) := by
      intro s
      cases way <;> rfl
    rw [setNext, content?_modifySlot]
    simp only [kept]
    exact ite_self _

theorem isPlace_setNext {a b p : Option Nat} : (c.setNext way a b).IsPlace p ↔ c.IsPlace p := by
  unfold IsPlace
  rw [(relinks_setNext c way a b).size]

theorem isPlace_some : c.IsPlace (some i) ↔ i < c.slots.size := by
  simp [IsPlace]

/-- The links of slots after the slot at `i` was changed. -/
theorem next_modifySlot (c : BoundedCache β) (way : Way) (i j : Nat) (f : Slot β → Slot β) :
    (c.modifySlot i f).next way (some j) =
      if j = i then c.slots[j]?.bind fun s => (f s).link way else c.next way (some j) := by
  rw [next, next, modifySlot, Array.getElem?_modify]
  by_cases same : j = i
  · rw [if_pos same.symm, if_pos same, Option.bind_map]
    rfl
  · rw [if_neg (Ne.symm same), if_neg same]

theorem next_setNext {a : Option Nat} (place : c.IsPlace a) (way other : Way) (b p : Option Nat) :
    (c.setNext way a b).next other p =
      if other = way then if p = a then b else c.next other p else c.next other p := by
  rcases a with _ | i <;> rcases p with _ | j
  case some.some =>
    rw [setNext, next_modifySlot]
    by_cases same : j = i
    · subst same
      obtain ⟨s, found⟩ : ∃ s, c.slots[j]? = some s :=
        ⟨_, Array.getElem?_eq_getElem (place j rfl)⟩
      simp only [next, found, Option.bind_some, Slot.link_setLink, if_true]
    · simp only [same, if_false, Option.some.injEq, ite_self]
  all_goals cases way <;> cases other <;> rfl

theorem modifySlot_modifySlot (c : BoundedCache β) (i : Nat) (f g : Slot β → Slot β) :
    (c.modifySlot i f).modifySlot i g = c.modifySlot i (g ∘ f) := by
  unfold modifySlot
  congr 1
  rw [← Array.toList_inj, Array.toList_modify, Array.toList_modify, Array.toList_modify,
    List.modify_modify_eq]

theorem setNext_setNext_slot (c : BoundedCache β) (i : Nat) (a b : Option Nat) :
    (c.setNext .toNewer (some i) a).setNext .toOlder (some i) b =
      c.modifySlot i fun s => { s with newer := a, older := b } :=
  modifySlot_modifySlot c i _ _

/-- Taking a slot out of the ring links its neighbours with each other. -/
theorem unlink_eq {slot : Slot β} (found : c.slots[i]? = some slot) :
    c.unlink i = (((c.setNext .toOlder slot.newer slot.older).setNext .toNewer slot.older
      slot.newer).setNext .toNewer (some i) none).setNext .toOlder (some i) none := by
  rw [unlink, found, setNext_setNext_slot]
  obtain ⟨key, value, newer, older⟩ := slot
  cases newer <;> cases older <;> rfl

/-- Putting a slot in at the newest end links it with the cache and with the newest slot before. -/
theorem pushNewest_eq (i : Nat) (ends : c.newest = none ↔ c.oldest = none) :
    c.pushNewest i = (((c.setNext .toNewer (some i) none).setNext .toOlder (some i)
      c.newest).setNext .toNewer c.newest (some i)).setNext .toOlder none (some i) := by
  rw [setNext_setNext_slot]
  unfold pushNewest
  cases first : c.newest with
  | none =>
    have last : c.oldest = none := ends.mp first
    simp only [setNext, modifySlot, last, Option.none_or]
  | some n =>
    obtain ⟨o, last⟩ : ∃ o, c.oldest = some o :=
      Option.ne_none_iff_exists'.mp fun h => by simp [ends.mpr h] at first
    simp only [setNext, modifySlot, last, Option.some_or]
    rfl

/-- Places stay adjacent where their links stay. -/
theorem chain_congr {places : List (Option Nat)} (chain : places.IsChain c.Adjacent)
    (olders : ∀ a ∈ places.dropLast, d.next .toOlder a = c.next .toOlder a)
    (newers : ∀ b ∈ places.tail, d.next .toNewer b = c.next .toNewer b) :
    places.IsChain d.Adjacent := by
  induction chain with
  | nil => exact .nil
  | singleton a => exact .singleton a
  | @cons_cons a b places adjacent _ ih =>
    obtain ⟨older, newer⟩ := adjacent
    refine .cons_cons ⟨?_, ?_⟩ (ih ?_ ?_)
    · rw [olders a (List.mem_cons_self ..), older]
    · rw [newers b (List.mem_cons_self ..), newer]
    · intro p inside
      exact olders p (List.mem_cons_of_mem a inside)
    · intro p inside
      exact newers p (List.mem_cons_of_mem b inside)

/-- If a place is passed over, its neighbours become adjacent. No place has two links of a kind: the
    links to older places start at all places but the last, and those to newer ones at all but the
    first. -/
theorem chain_skip {front back : List (Option Nat)} {x y z : Option Nat}
    (chain : (front ++ x :: y :: z :: back).IsChain c.Adjacent)
    (nodup_older : (front ++ x :: y :: (z :: back).dropLast).Nodup)
    (nodup_newer : ((front ++ [x]).tail ++ y :: z :: back).Nodup)
    (olders : ∀ p, d.next .toOlder p =
      if p = y then none else if p = x then z else c.next .toOlder p)
    (newers : ∀ p, d.next .toNewer p =
      if p = y then none else if p = z then x else c.next .toNewer p) :
    (front ++ x :: z :: back).IsChain d.Adjacent := by
  rw [List.isChain_append_cons_cons, List.isChain_cons_cons] at chain
  obtain ⟨first, _, _, last⟩ := chain
  obtain ⟨_, nodup_older', older_apart⟩ := List.nodup_append.mp nodup_older
  obtain ⟨_, nodup_newer', newer_apart⟩ := List.nodup_append.mp nodup_newer
  rw [List.nodup_cons, List.mem_cons] at nodup_older' nodup_newer'
  rw [List.nodup_cons] at nodup_older' nodup_newer'
  obtain ⟨x_apart, y_older, _⟩ := nodup_older'
  obtain ⟨y_apart, z_newer, _⟩ := nodup_newer'
  rw [List.isChain_append_cons_cons]
  refine ⟨chain_congr first ?_ ?_, ⟨?_, ?_⟩, chain_congr last ?_ ?_⟩
  · intro a inside
    rw [List.dropLast_concat] at inside
    have ne_x : a ≠ x := older_apart a inside x (by simp)
    have ne_y : a ≠ y := older_apart a inside y (by simp)
    rw [olders, if_neg ne_y, if_neg ne_x]
  · intro b inside
    have ne_y : b ≠ y := newer_apart b inside y (by simp)
    have ne_z : b ≠ z := newer_apart b inside z (by simp)
    rw [newers, if_neg ne_y, if_neg ne_z]
  · have ne_y : x ≠ y := fun same => x_apart (.inl same)
    rw [olders, if_neg ne_y, if_pos rfl]
  · have ne_y : z ≠ y := fun same => y_apart (.inl same.symm)
    rw [newers, if_neg ne_y, if_pos rfl]
  · intro a inside
    have ne_x : a ≠ x := fun same => x_apart (.inr (same ▸ inside))
    have ne_y : a ≠ y := fun same => y_older (same ▸ inside)
    rw [olders, if_neg ne_y, if_neg ne_x]
  · intro b inside
    have ne_y : b ≠ y := fun same => y_apart (.inr (same ▸ inside))
    have ne_z : b ≠ z := fun same => z_newer (same ▸ inside)
    rw [newers, if_neg ne_y, if_neg ne_z]

/-- The ring without the cache's second place in it, and without its first one. -/
theorem nodup_places (nodup : order.Nodup) :
    (none :: order.map some).Nodup ∧ (order.map some ++ [none]).Nodup := by
  have slots : (order.map some).Nodup := nodup.map (Option.some_injective Nat)
  refine ⟨List.nodup_cons.mpr ⟨by simp, slots⟩, ?_⟩
  exact List.nodup_append.mpr ⟨slots, List.nodup_singleton none, by simp⟩

theorem relinks_unlink (c : BoundedCache β) (i : Nat) : c.Relinks (c.unlink i) := by
  cases found : c.slots[i]? with
  | none =>
    rw [unlink, found]
    exact .refl c
  | some slot =>
    rw [unlink_eq found]
    exact (((relinks_setNext ..).trans (relinks_setNext ..)).trans (relinks_setNext ..)).trans
      (relinks_setNext ..)

/-- On a way, the neighbour that comes before a slot taken out gets the neighbour that comes after. -/
theorem next_unlink {slot : Slot β} (found : c.slots[i]? = some slot)
    (places : ∀ way, c.IsPlace (slot.link way)) (way : Way) (p : Option Nat) :
    (c.unlink i).next way p =
      if p = some i then none else if p = slot.link way.back then slot.link way
        else c.next way p := by
  have stored : c.IsPlace (some i) := isPlace_some.mpr (Array.getElem?_eq_some_iff.mp found).1
  have place_newer : c.IsPlace slot.newer := places .toNewer
  have place_older : c.IsPlace slot.older := places .toOlder
  rw [unlink_eq found, next_setNext, next_setNext, next_setNext, next_setNext place_newer]
  · cases way <;> simp only [reduceCtorEq, if_true, if_false] <;> rfl
  · rwa [isPlace_setNext]
  · rwa [isPlace_setNext, isPlace_setNext]
  · rwa [isPlace_setNext, isPlace_setNext, isPlace_setNext]

/-- A slot taken out of the ring leaves the others in their order. -/
theorem Linked.unlink (linked : c.Linked (xs ++ i :: ys)) (nodup : (xs ++ i :: ys).Nodup)
    (stored : ∀ j ∈ xs ++ i :: ys, j < c.slots.size) : (c.unlink i).Linked (xs ++ ys) := by
  obtain ⟨front, x, before⟩ :=
    (List.eq_nil_or_concat (none :: xs.map some)).resolve_left (List.cons_ne_nil _ _)
  obtain ⟨z, back, behind⟩ := List.exists_cons_of_ne_nil
    (List.append_ne_nil_of_right_ne_nil (ys.map some) (List.cons_ne_nil none []))
  rw [List.concat_eq_append] at before
  have ring : none :: ((xs ++ i :: ys).map some ++ [none]) = front ++ x :: some i :: z :: back := by
    rw [List.map_append, List.map_cons, List.append_assoc, List.cons_append, behind,
      ← List.cons_append, before, List.append_assoc, List.singleton_append]
  have ring' : none :: ((xs ++ ys).map some ++ [none]) = front ++ x :: z :: back := by
    rw [List.map_append, List.append_assoc, behind, ← List.cons_append, before, List.append_assoc,
      List.singleton_append]
  rw [Linked, ring] at linked
  rw [Linked, ring']
  obtain ⟨_, ⟨_, newer_i⟩, ⟨older_i, _⟩, _⟩ := by
    simpa only [List.isChain_append_cons_cons, List.isChain_cons_cons] using linked
  obtain ⟨slot, found⟩ : ∃ slot, c.slots[i]? = some slot :=
    ⟨_, Array.getElem?_eq_getElem (stored i (by simp))⟩
  have slot_newer : slot.link .toNewer = x := by rw [← newer_i, next, found, Option.bind_some]
  have slot_older : slot.link .toOlder = z := by rw [← older_i, next, found, Option.bind_some]
  have places : ∀ way, c.IsPlace (slot.link way) := by
    intro way j same
    cases way with
    | toOlder =>
      rw [slot_older] at same
      obtain rfl : z = some j := same
      have inside : some j ∈ ys.map some ++ [none] := by simp [behind]
      exact stored j (List.mem_append_right _ (List.mem_cons_of_mem i (by simpa using inside)))
    | toNewer =>
      rw [slot_newer] at same
      obtain rfl : x = some j := same
      have inside : some j ∈ none :: xs.map some := by simp [before]
      exact stored j (List.mem_append_left _ (by simpa using inside))
  have olders := next_unlink found places .toOlder
  have newers := next_unlink found places .toNewer
  simp only [Way.back, slot_newer, slot_older] at olders newers
  obtain ⟨nodup_older, nodup_newer⟩ := nodup_places nodup
  refine chain_skip linked ?_ ?_ olders newers
  · rw [List.map_append, List.map_cons, ← List.cons_append, before, List.append_assoc,
      List.singleton_append] at nodup_older
    rwa [← behind, List.dropLast_concat]
  · rw [List.map_append, List.map_cons, List.append_assoc, List.cons_append, behind] at nodup_newer
    rwa [← before, List.tail_cons]

/-- The ends of the order are those of the ring. -/
theorem Linked.ends (linked : c.Linked order) :
    c.newest = order.head? ∧ c.oldest = order.getLast? := by
  constructor
  · cases order with
    | nil => exact (List.isChain_cons_cons.mp linked).1.1
    | cons i order => exact (List.isChain_cons_cons.mp linked).1.1
  · rcases List.eq_nil_or_concat order with rfl | ⟨xs, i, rfl⟩
    · exact (List.isChain_cons_cons.mp linked).1.2
    · have ring : none :: ((xs.concat i).map some ++ [none]) =
          (none :: xs.map some) ++ some i :: none :: [] := by simp
      rw [Linked, ring, List.isChain_append_cons_cons] at linked
      rw [List.concat_eq_append, List.getLast?_concat]
      exact linked.2.1.2

theorem Linked.no_ends (linked : c.Linked order) : c.newest = none ↔ c.oldest = none := by
  rw [linked.ends.1, linked.ends.2, List.head?_eq_none_iff, List.getLast?_eq_none_iff]

/-- The newest slot is one of the cache, if there is one. -/
theorem Linked.isPlace_newest (linked : c.Linked order) (stored : ∀ j ∈ order, j < c.slots.size) :
    c.IsPlace c.newest := by
  intro j first
  rw [linked.ends.1] at first
  exact stored j (List.mem_of_mem_head? first)

/-- The neighbours of a slot are those in the order, or the cache at an end. -/
theorem Linked.neighbours (linked : c.Linked (xs ++ i :: ys)) :
    c.next .toOlder (some i) = ys.head? ∧ c.next .toNewer (some i) = xs.getLast? := by
  obtain ⟨front, before⟩ : ∃ front, none :: xs.map some = front ++ [xs.getLast?] := by
    rcases List.eq_nil_or_concat xs with rfl | ⟨xs, x, rfl⟩
    · exact ⟨[], rfl⟩
    · exact ⟨none :: xs.map some, by simp⟩
  obtain ⟨back, behind⟩ : ∃ back, ys.map some ++ [none] = ys.head? :: back := by
    cases ys with
    | nil => exact ⟨[], rfl⟩
    | cons y ys => exact ⟨ys.map some ++ [none], rfl⟩
  have ring : none :: ((xs ++ i :: ys).map some ++ [none]) =
      front ++ xs.getLast? :: some i :: ys.head? :: back := by
    rw [List.map_append, List.map_cons, List.append_assoc, List.cons_append, behind,
      ← List.cons_append, before, List.append_assoc, List.singleton_append]
  rw [Linked, ring, List.isChain_append_cons_cons, List.isChain_cons_cons] at linked
  obtain ⟨_, ⟨_, newer⟩, ⟨older, _⟩, _⟩ := linked
  exact ⟨older, newer⟩

theorem relinks_pushNewest (linked : c.Linked order) (i : Nat) : c.Relinks (c.pushNewest i) := by
  rw [pushNewest_eq i linked.no_ends]
  exact (((relinks_setNext ..).trans (relinks_setNext ..)).trans (relinks_setNext ..)).trans
    (relinks_setNext ..)

/-- The slot that is put in comes after the cache and before the slot that was the newest. -/
theorem next_pushNewest (linked : c.Linked order) (place : c.IsPlace (some i))
    (place_newest : c.IsPlace c.newest) (way : Way) (p : Option Nat) :
    (c.pushNewest i).next way p =
      match way with
      | .toOlder => if p = none then some i else if p = some i then c.newest else c.next .toOlder p
      | .toNewer =>
        if p = c.newest then some i else if p = some i then none else c.next .toNewer p := by
  have place_none : c.IsPlace none := nofun
  rw [pushNewest_eq i linked.no_ends, next_setNext, next_setNext, next_setNext, next_setNext place]
  · cases way <;> simp only [reduceCtorEq, if_true, if_false]
  · rwa [isPlace_setNext]
  · rwa [isPlace_setNext, isPlace_setNext]
  · rwa [isPlace_setNext, isPlace_setNext, isPlace_setNext]

/-- A slot put in at the newest end stands before the others. -/
theorem Linked.pushNewest (linked : c.Linked order) (nodup : (i :: order).Nodup)
    (stored : ∀ j ∈ i :: order, j < c.slots.size) : (c.pushNewest i).Linked (i :: order) := by
  have place_i : c.IsPlace (some i) := isPlace_some.mpr (stored i (List.mem_cons_self ..))
  have place_newest : c.IsPlace c.newest :=
    linked.isPlace_newest fun j inside => stored j (List.mem_cons_of_mem i inside)
  have links := next_pushNewest linked place_i place_newest
  have olders := links .toOlder
  have newers := links .toNewer
  obtain ⟨nodup_older, nodup_newer⟩ := nodup_places nodup
  obtain ⟨z, back, behind⟩ := List.exists_cons_of_ne_nil
    (List.append_ne_nil_of_right_ne_nil (order.map some) (List.cons_ne_nil none []))
  rw [List.map_cons, List.cons_append, behind] at nodup_newer
  rw [List.map_cons, List.nodup_cons, List.nodup_cons] at nodup_older
  obtain ⟨none_apart, i_older, _⟩ := nodup_older
  rw [List.nodup_cons, List.nodup_cons] at nodup_newer
  obtain ⟨i_newer, z_newer, _⟩ := nodup_newer
  rw [Linked, behind] at linked
  obtain ⟨⟨newest_eq, _⟩, rest⟩ := List.isChain_cons_cons.mp linked
  rw [next] at newest_eq
  simp only [newest_eq] at olders newers
  have ne_z : some i ≠ z := fun same => i_newer (same ▸ List.mem_cons_self ..)
  rw [Linked, List.map_cons, List.cons_append, behind]
  refine .cons_cons ⟨?_, ?_⟩ (.cons_cons ⟨?_, ?_⟩ (chain_congr rest ?_ ?_))
  · rw [olders, if_pos rfl]
  · rw [newers, if_neg ne_z, if_pos rfl]
  · rw [olders, if_neg (Option.some_ne_none i), if_pos rfl]
  · rw [newers, if_pos rfl]
  · intro a inside
    rw [← behind, List.dropLast_concat] at inside
    have ne_none : a ≠ none := fun same => none_apart (same ▸ List.mem_cons_of_mem _ inside)
    have ne_i : a ≠ some i := fun same => i_older (same ▸ inside)
    rw [olders, if_neg ne_none, if_neg ne_i]
  · intro b inside
    have ne_z : b ≠ z := fun same => z_newer (same ▸ inside)
    have ne_i : b ≠ some i := fun same => i_newer (same ▸ List.mem_cons_of_mem _ inside)
    rw [newers, if_neg ne_z, if_neg ne_i]

/-- A use of a slot puts it before the others. -/
theorem Linked.touch (linked : c.Linked (xs ++ i :: ys)) (nodup : (xs ++ i :: ys).Nodup)
    (stored : ∀ j ∈ xs ++ i :: ys, j < c.slots.size) :
    c.Relinks (c.touch i) ∧ (c.touch i).Linked (i :: (xs ++ ys)) := by
  unfold BoundedCache.touch
  by_cases first : c.newest = some i
  · rw [if_pos first]
    refine ⟨.refl c, ?_⟩
    rw [linked.ends.1] at first
    cases xs with
    | nil => exact linked
    | cons j xs =>
      obtain rfl : j = i := by simpa using first
      simp at nodup
  · rw [if_neg first]
    have unlinked := linked.unlink nodup stored
    have relinks := relinks_unlink c i
    refine ⟨relinks.trans (relinks_pushNewest unlinked i), ?_⟩
    refine unlinked.pushNewest (List.nodup_middle.mp nodup) fun j inside => ?_
    rw [relinks.size]
    exact stored j (List.perm_middle.mem_iff.mpr inside)

end BoundedCache

end RecordQuery
