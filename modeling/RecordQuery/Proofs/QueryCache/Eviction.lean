import RecordQuery.Proofs.QueryCache.Inclusion

/-!
# What a store drops

A value that is stored under a new key takes the place of another one in a bounded cache that is at its
capacity, and of none in any other cache: `QueryCache.Valid.drops_store`.
-/

namespace RecordQuery

namespace BoundedCache.Represents

variable {β : Type} {c : BoundedCache β} {l : RecencyList β} {order : List Nat}

/-- No key comes twice. -/
theorem nodup_keys (h : c.Represents order l) : (l.entries.map Prod.fst).Nodup := by
  have apart : (order.map c.content?).Pairwise fun x y => ∀ e f, x = some e → y = some f → e.1 ≠ f.1 := by
    refine List.pairwise_map.mpr (h.valid.nodup.imp fun differ e f here there same => differ ?_)
    have first := (h.valid.indexed.finds e.1 _).mpr ⟨e.2, here⟩
    have second := (h.valid.indexed.finds f.1 _).mpr ⟨f.2, there⟩
    rw [same] at first
    exact Option.some.inj (first.symm.trans second)
  rw [h.entries] at apart
  exact List.pairwise_map.mpr ((List.pairwise_map.mp apart).imp fun apart => apart _ _ rfl rfl)

end BoundedCache.Represents

namespace RecencyList

variable {β : Type} {l : RecencyList β} {es : List (String × β)} {key old : String} {value v : β}

/-- A value that is stored under a new key takes the place of the last entry of a full list. -/
theorem store_of_full (absent : l.find? key = none) (full : l.entries.length = l.capacity)
    (split : l.entries = es ++ [(old, v)]) :
    l.store key value = ({ l with entries := (key, value) :: es }, some old) := by
  rw [store, absent, Option.isSome_none, if_neg Bool.false_ne_true, if_pos full, split,
    List.dropLast_concat, List.getLast?_concat]
  rfl

theorem store_of_free (absent : l.find? key = none) (free : l.entries.length ≠ l.capacity) :
    l.store key value = ({ l with entries := (key, value) :: l.entries }, none) := by
  rw [store, absent, Option.isSome_none, if_neg Bool.false_ne_true, if_neg free]

/-- Then the last entry is not found any more, and all others are found as before. -/
theorem find?_of_dropped (once : (l.entries.map Prod.fst).Nodup) (absent : l.find? key = none)
    (split : l.entries = es ++ [(old, v)]) (value : β) :
    let after : RecencyList β := { l with entries := (key, value) :: es }
    l.find? old = some v ∧ after.find? old = none ∧
      ∀ other, other ≠ key → other ≠ old → after.find? other = l.find? other := by
  intro after
  have fresh : ∀ e ∈ es ++ [], e.1 ≠ old := fresh_of_nodup (split ▸ once)
  have held : l.find? old = some v := by rw [find?, split, lookup_append_cons fresh]
  have differ : old ≠ key := by
    rintro rfl
    rw [held] at absent
    cases absent
  rw [List.append_nil] at fresh
  refine ⟨held, (lookup_cons_of_ne differ _ _).trans (lookup_eq_none_of_fresh fresh), ?_⟩
  intro other ne_key ne_old
  have last : [(old, v)].lookup other = none := lookup_cons_of_ne ne_old v []
  have before : l.find? other = es.lookup other := by
    rw [find?, split, List.lookup_append, last, Option.or_none]
  exact (lookup_cons_of_ne ne_key _ _).trans before.symm

end RecencyList

namespace QueryCache

variable {β : Type} {c : QueryCache β} {key : String} {value : β}

/-- The cache `c` is `d` after a store under a key that it did not hold, which logs some events: either it
    was at its capacity and no longer holds one of its other keys, or nothing was dropped. -/
inductive Drops (key : String) (c d : QueryCache β) : List Event → Prop
  | evicted {b : BoundedCache β} {old : String} (limited : c = bounded b) (full : b.size = b.capacity)
      (held : (c.find? old).isSome) (gone : d.find? old = none)
      (kept : ∀ other, other ≠ key → other ≠ old → d.find? other = c.find? other) :
      Drops key c d [.evicted old b.capacity]
  | nothing (free : ∀ b, c = bounded b → b.size ≠ b.capacity)
      (kept : ∀ other, other ≠ key → d.find? other = c.find? other) : Drops key c d []

open RecencyList in
theorem drops_store_bounded {b : BoundedCache β} {order : List Nat} {l : RecencyList β}
    (h : b.Represents order l) (absent : l.find? key = none) (value : β) :
    Drops key (bounded b) ((bounded b).store key value).1 ((bounded b).store key value).2 := by
  obtain ⟨dropped, order', after⟩ := h.store key value
  have found := fun other => find?_bounded after other
  have size := h.size_eq
  have capacity := h.capacity
  by_cases full : l.entries.length = l.capacity
  · have notFree : ¬ b.slots.size < b.capacity := by
      have length := h.length_entries
      omega
    obtain ⟨_, _, es, old, v, _, split, _⟩ := h.exists_last notFree
    obtain ⟨held, gone, kept⟩ := find?_of_dropped h.nodup_keys absent split value
    rw [store_of_full absent full split] at dropped after found
    have events : ((bounded b).store key value).2 = [.evicted old b.capacity] := by
      simp only [QueryCache.store, dropped, ← after.capacity, capacity]
      rfl
    rw [events]
    refine .evicted rfl (by omega) ?_ ((found old).trans gone) fun other ne_key ne_old => ?_
    · rw [find?_bounded h, held]
      rfl
    · rw [find?_bounded h]
      exact (found other).trans (kept other ne_key ne_old)
  · rw [store_of_free absent full] at dropped found
    have events : ((bounded b).store key value).2 = [] := by
      simp only [QueryCache.store, dropped]
      rfl
    rw [events]
    refine .nothing (by rintro _ ⟨⟩; omega) fun other differ => ?_
    rw [find?_bounded h]
    exact (found other).trans (lookup_cons_of_ne differ _ _)

theorem Valid.drops_store (valid : c.Valid) (missed : c.find? key = none) (value : β) :
    Drops key c (c.store key value).1 (c.store key value).2 := by
  cases c with
  | unbounded c =>
    refine .nothing (by rintro _ ⟨⟩) fun other differ => ?_
    exact (c.load_store key other value).trans (if_neg (Ne.symm differ))
  | bounded b =>
    obtain ⟨order, l, h⟩ := valid
    rw [find?_bounded h] at missed
    exact drops_store_bounded h missed value

/-- What comes of an empty cache by looking keys up and storing values. -/
inductive Reachable : QueryCache β → Prop
  | empty (limit : Option Nat) : Reachable (ofLimit limit)
  | load {c : QueryCache β} (before : Reachable c) (key : String) : Reachable (c.load key).2
  | store {c : QueryCache β} (before : Reachable c) (key : String) (value : β) :
      Reachable (c.store key value).1

theorem Reachable.valid (reachable : c.Reachable) : c.Valid := by
  induction reachable with
  | empty limit => exact valid_ofLimit limit
  | load _ key ih => exact (ih.load key).1
  | store _ key value ih => exact (ih.store key value).1

end QueryCache

end RecordQuery
