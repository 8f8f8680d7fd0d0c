import Mathlib.Data.Finset.Card
import RecordQuery.Proofs.QueryCache.Contents

/-!
# What a bounded cache holds, by its history

A key is used where a value is stored under it and where it is looked up and found. The keys that have
been used, each at the place of its latest use, are the order in which a recency list keeps its entries,
as far as its capacity goes: `RecencyList.Follows`. So what a bounded cache holds can be told from the
requests that were made of it and from their answers: `BoundedCache.contents_of_history`.
-/

namespace RecordQuery

/-- The keys of a run of uses, the latest first, each at the place of its latest use. -/
def recent : List String → List String
  | [] => []
  | key :: used => key :: (recent used).filter (· ≠ key)

theorem mem_recent {key : String} {used : List String} : key ∈ recent used ↔ key ∈ used := by
  induction used with
  | nil => rfl
  | cons k used ih =>
    rw [recent, List.mem_cons, List.mem_cons, List.mem_filter, ih, decide_eq_true_iff]
    by_cases same : key = k
    · simp only [same, true_or]
    · simp only [same, false_or, ne_eq, not_false_iff, and_true]

theorem nodup_recent (used : List String) : (recent used).Nodup := by
  induction used with
  | nil => exact List.nodup_nil
  | cons key used ih =>
    refine List.nodup_cons.mpr ⟨fun inside => ?_, ih.filter _⟩
    exact of_decide_eq_true (List.mem_filter.mp inside).2 rfl

/-- Each key that has been used counts once. -/
theorem length_recent (used : List String) : (recent used).length = used.toFinset.card := by
  rw [← List.toFinset_card_of_nodup (nodup_recent used)]
  refine congrArg Finset.card (Finset.ext fun key => ?_)
  rw [List.mem_toFinset, List.mem_toFinset, mem_recent]

/-- The keys used since the latest use of a key come before it. -/
theorem exists_recent_append {key : String} {since : List String} (fresh : key ∉ since)
    (before : List String) : ∃ rest, recent (since ++ key :: before) = recent since ++ key :: rest := by
  induction since with
  | nil => exact ⟨_, rfl⟩
  | cons k since ih =>
    obtain ⟨differ, fresh⟩ := not_or.mp (mt List.mem_cons.mpr fresh)
    obtain ⟨rest, split⟩ := ih fresh
    refine ⟨rest.filter (· ≠ k), ?_⟩
    rw [List.cons_append, recent, split, List.filter_append, List.filter_cons_of_pos (by simpa using differ),
      recent, List.cons_append]

/-- A key is among the first `n` if fewer than `n` others have been used since its latest use. -/
theorem mem_take_recent {key : String} {used : List String} {n : Nat} :
    key ∈ (recent used).take n ↔ key ∈ used ∧ (used.takeWhile (· ≠ key)).toFinset.card < n := by
  by_cases member : key ∈ used
  swap
  · exact iff_of_false (fun inside => member (mem_recent.mp (List.mem_of_mem_take inside)))
      fun both => member both.1
  obtain ⟨since, before, rfl, fresh⟩ := List.eq_append_cons_of_mem member
  obtain ⟨rest, split⟩ := exists_recent_append fresh before
  have others : (since ++ key :: before).takeWhile (· ≠ key) = since := by
    have differ : ∀ k ∈ since, decide (k ≠ key) = true := fun k inside =>
      decide_eq_true fun same => fresh (same ▸ inside)
    rw [List.takeWhile_append_of_pos differ, List.takeWhile_cons_of_neg (by simp), List.append_nil]
  have outside : key ∉ (recent since).take n := fun inside =>
    fresh (mem_recent.mp (List.mem_of_mem_take inside))
  rw [others, and_iff_right member, split, ← length_recent, List.take_append, List.mem_append,
    or_iff_right outside]
  by_cases few : (recent since).length < n
  · obtain ⟨m, more⟩ := Nat.exists_eq_add_of_lt (Nat.sub_pos_of_lt few)
    rw [more, Nat.zero_add, List.take_succ_cons]
    exact iff_of_true List.mem_cons_self few
  · rw [Nat.sub_eq_zero_of_le (Nat.le_of_not_lt few), List.take_zero]
    exact iff_of_false List.not_mem_nil few

/-- Taking a key away from the first ones brings up no other. -/
theorem filter_take_of_mem {key : String} {keys : List String} (once : keys.Nodup) {n : Nat}
    (inside : key ∈ keys.take n) :
    (keys.take n).filter (· ≠ key) = (keys.filter (· ≠ key)).take (n - 1) := by
  induction keys generalizing n with
  | nil => simp
  | cons k keys ih =>
    obtain ⟨fresh, once⟩ := List.nodup_cons.mp once
    cases n with
    | zero => cases inside
    | succ n =>
      rw [List.take_succ_cons] at inside ⊢
      by_cases same : k = key
      · subst same
        have kept : ∀ ks : List String, k ∉ ks → ks.filter (· ≠ k) = ks := fun ks fresh =>
          List.filter_eq_self.mpr fun e member => decide_eq_true fun same => fresh (same ▸ member)
        rw [List.filter_cons_of_neg (by simp), List.filter_cons_of_neg (by simp), kept keys fresh,
          kept _ fun member => fresh (List.mem_of_mem_take member), Nat.add_sub_cancel]
      · have inside := (List.mem_cons.mp inside).resolve_left (Ne.symm same)
        cases n with
        | zero => cases inside
        | succ n =>
          rw [List.filter_cons_of_pos (by simpa using same), List.filter_cons_of_pos (by simpa using same),
            ih once inside, Nat.add_sub_cancel, Nat.add_sub_cancel, List.take_succ_cons]

/-- Taking away a key that is not among the first ones leaves these as they are. -/
theorem take_filter_of_not_mem {key : String} {keys : List String} {n : Nat}
    (outside : key ∉ keys.take n) : (keys.filter (· ≠ key)).take n = keys.take n := by
  induction keys generalizing n with
  | nil => rfl
  | cons k keys ih =>
    cases n with
    | zero => rfl
    | succ n =>
      rw [List.take_succ_cons] at outside ⊢
      obtain ⟨differ, outside⟩ := not_or.mp (mt List.mem_cons.mpr outside)
      rw [List.filter_cons_of_pos (by simpa using Ne.symm differ), List.take_succ_cons, ih outside]

namespace CacheRequest

variable {β : Type}

/-- What a request puts under a key. -/
def stored? : CacheRequest β → Option (String × β)
  | store key value => some (key, value)
  | _ => none

/-- The key that a request uses: one under which it stores, or one that it looks up and finds. -/
def used? : CacheRequest β → CacheAnswer β → Option String
  | store key _, _ => some key
  | load key, .found (some _) => some key
  | _, _ => none

/-- What some requests store, in their order. -/
def stores (requests : List (CacheRequest β)) : List (String × β) :=
  requests.filterMap stored?

/-- The keys that some requests use, in their order. -/
def uses : List (CacheRequest β) → List (CacheAnswer β) → List String
  | request :: requests, answer :: answers =>
    (request.used? answer).toList ++ uses requests answers
  | _, _ => []

theorem stores_cons (request : CacheRequest β) (requests : List (CacheRequest β)) :
    stores (request :: requests) = request.stored?.toList ++ stores requests := by
  cases stored : request.stored? with
  | none => rw [stores, List.filterMap_cons_none stored, stores, Option.toList_none, List.nil_append]
  | some s =>
    rw [stores, List.filterMap_cons_some stored, stores, Option.toList_some, List.singleton_append]

theorem mem_keys_stores {key : String} {requests : List (CacheRequest β)} :
    key ∈ (stores requests).map Prod.fst ↔ ∃ value, store key value ∈ requests := by
  rw [List.mem_map]
  constructor
  · rintro ⟨⟨k, value⟩, member, rfl⟩
    obtain ⟨request, inside, stored⟩ := List.mem_filterMap.mp member
    cases request with
    | store _ _ =>
      cases stored
      exact ⟨_, inside⟩
    | load _ | contains _ | size | isEmpty => cases stored
  · rintro ⟨value, inside⟩
    exact ⟨(key, value), List.mem_filterMap.mpr ⟨_, inside, rfl⟩, rfl⟩

end CacheRequest

namespace RecencyList

variable {β : Type} {l : RecencyList β} {n : Nat} {stores : List (String × β)} {used : List String}

theorem isSome_find?_iff (l : RecencyList β) (key : String) :
    (l.find? key).isSome ↔ key ∈ l.entries.map Prod.fst := by
  rw [← not_iff_not, Option.not_isSome_iff_eq_none, find?, List.lookup_eq_none_iff]
  simp only [List.mem_map, not_exists, not_and, bne_iff_ne, ne_eq]
  exact forall_congr' fun _ => imp_congr_right fun _ => not_congr eq_comm

theorem map_without (key : String) (entries : List (String × β)) :
    (without key entries).map Prod.fst = (entries.map Prod.fst).filter (· ≠ key) := by
  rw [without, List.filter_map]
  rfl

/-- The list is what some stores and some uses, each given latest first, have made of an empty one of
    capacity `n`. -/
structure Follows (l : RecencyList β) (n : Nat) (stores : List (String × β)) (used : List String) :
    Prop where
  room : 0 < n
  capacity : l.capacity = n
  /-- The keys are those used latest. -/
  keys : l.entries.map Prod.fst = (recent used).take n
  /-- The value under a key is the latest one that was stored there. -/
  values : ∀ key value, l.find? key = some value → stores.lookup key = some value
  /-- Every key that is used has been stored once. -/
  stored : ∀ key, key ∈ used ↔ key ∈ stores.map Prod.fst

namespace Follows

theorem ofCapacity (capacity : Nat) : (ofCapacity capacity : RecencyList β).Follows (max capacity 1) [] [] :=
  ⟨Nat.lt_of_lt_of_le Nat.zero_lt_one (Nat.le_max_right _ _), rfl, List.take_nil.symm,
    by rintro _ _ ⟨⟩, fun _ => Iff.rfl⟩

/-- The keys that can be found are the ones used latest. -/
theorem isSome_find? (h : l.Follows n stores used) (key : String) :
    (l.find? key).isSome ↔ key ∈ (recent used).take n := by
  rw [isSome_find?_iff, h.keys]

/-- A key that is there comes to the front by a use. -/
theorem keys_of_present (h : l.Follows n stores used) {key : String} (present : (l.find? key).isSome)
    (value : β) :
    ((key, value) :: without key l.entries).map Prod.fst = (recent (key :: used)).take n := by
  have inside := (h.isSome_find? key).mp present
  obtain ⟨m, rfl⟩ := Nat.exists_eq_add_of_lt h.room
  rw [List.map_cons, map_without, h.keys, filter_take_of_mem (nodup_recent used) inside, recent,
    Nat.zero_add, List.take_succ_cons, Nat.add_sub_cancel]

/-- A key that is not there comes to the front, and only the first `n - 1` others are kept. -/
theorem take_recent_of_absent (h : l.Follows n stores used) {key : String}
    (absent : ¬ (l.find? key).isSome) :
    (recent (key :: used)).take n = key :: (recent used).take (n - 1) := by
  have outside := mt (h.isSome_find? key).mpr absent
  obtain ⟨m, rfl⟩ := Nat.exists_eq_add_of_lt h.room
  rw [Nat.zero_add] at outside
  have outside : key ∉ (recent used).take m := fun inside =>
    outside (List.take_subset_take_left _ (Nat.le_succ m) inside)
  rw [recent, Nat.zero_add, List.take_succ_cons, take_filter_of_not_mem outside, Nat.add_sub_cancel]

theorem load (h : l.Follows n stores used) (key : String) :
    (l.load key).2.Follows n stores
      (((CacheRequest.load key).used? (.found (l.load key).1)).toList ++ used) := by
  have kept := l.find?_load key
  cases found : l.find? key with
  | none =>
    simp only [RecencyList.load, found]
    exact h
  | some value =>
    have keys := h.keys_of_present (Option.isSome_of_eq_some found) value
    simp only [RecencyList.load, found] at kept ⊢
    refine ⟨h.room, h.capacity, keys, fun other v => ?_, fun other => ?_⟩
    · rw [kept]
      exact h.values other v
    · have inside := (h.isSome_find? key).mp (Option.isSome_of_eq_some found)
      have again : other ∈ key :: used ↔ other ∈ used := by
        rw [List.mem_cons, or_iff_right_of_imp]
        rintro rfl
        exact mem_recent.mp (List.mem_of_mem_take inside)
      exact again.trans (h.stored other)

/-- A key comes to the front when a value is stored under it, whether or not it was there. -/
theorem keys_of_store (h : l.Follows n stores used) (key : String) (value : β) :
    (l.store key value).1.entries.map Prod.fst = (recent (key :: used)).take n := by
  have length : l.entries.length = min n (recent used).length := by
    rw [← List.length_map Prod.fst, h.keys, List.length_take]
  unfold RecencyList.store
  split_ifs with present full
  · exact h.keys_of_present present value
  · rw [h.take_recent_of_absent present, List.map_cons, List.map_dropLast, h.keys,
      List.dropLast_eq_take, List.take_take, List.length_take, ← length, full, h.capacity,
      Nat.min_eq_left (Nat.sub_le n 1)]
  · rw [h.capacity] at full
    rw [h.take_recent_of_absent present, List.map_cons, h.keys, List.take_of_length_le (by omega),
      List.take_of_length_le (by omega)]

theorem values_of_store (h : l.Follows n stores used) {key other : String} {value v : β}
    (found : (l.store key value).1.find? other = some v) :
    ((key, value) :: stores).lookup other = some v := by
  have before := find?_of_find?_store found
  by_cases same : other = key
  · rw [if_pos same] at before
    rw [same, before, List.lookup_cons_self]
  · rw [if_neg same] at before
    rw [lookup_cons_of_ne same]
    exact h.values other v before

theorem store (h : l.Follows n stores used) (key : String) (value : β) :
    (l.store key value).1.Follows n ((key, value) :: stores) (key :: used) := by
  have capacity : (l.store key value).1.capacity = l.capacity := by
    unfold RecencyList.store
    split_ifs <;> rfl
  refine ⟨h.room, capacity.trans h.capacity, h.keys_of_store key value,
    fun other v found => h.values_of_store found, fun other => ?_⟩
  rw [List.map_cons, List.mem_cons, List.mem_cons, h.stored other]

theorem respond (h : l.Follows n stores used) (request : CacheRequest β) :
    (l.respond request).2.Follows n (request.stored?.toList ++ stores)
      ((request.used? (l.respond request).1).toList ++ used) := by
  cases request with
  | load key => exact h.load key
  | store key value => exact h.store key value
  | contains _ | size | isEmpty => exact h

/-- What a list holds after some requests follows from what they have stored and used. -/
theorem serve (requests : List (CacheRequest β)) :
    ∀ {l : RecencyList β} {stores : List (String × β)} {used : List String}, l.Follows n stores used →
      (CacheRequest.serve RecencyList.respond l requests).2.Follows n
        ((CacheRequest.stores requests).reverse ++ stores)
        ((CacheRequest.uses requests (CacheRequest.serve RecencyList.respond l requests).1).reverse ++
          used) := by
  induction requests with
  | nil => exact fun {_ _ _} h => h
  | cons request requests ih =>
    intro l stores used h
    have single : ∀ {γ : Type} (o : Option γ), o.toList.reverse = o.toList := by
      rintro γ (_ | c) <;> rfl
    rw [CacheRequest.serve, CacheRequest.stores_cons, CacheRequest.uses, List.reverse_append,
      List.reverse_append, List.append_assoc, List.append_assoc, single, single]
    exact ih (h.respond request)

end Follows

end RecencyList

namespace UnboundedCache

variable {β : Type}

/-- A cache without a limit that some values have been stored in, one after the other. -/
def ofStores (stores : List (String × β)) : UnboundedCache β :=
  stores.foldl (fun c s => c.store s.1 s.2) {}

theorem load_ofStores (stores : List (String × β)) (key : String) :
    (ofStores stores).load key = stores.reverse.lookup key := by
  have onto : ∀ c : UnboundedCache β,
      (stores.foldl (fun c s => c.store s.1 s.2) c).load key =
        (stores.reverse.lookup key).or (c.load key) := by
    induction stores with
    | nil => exact fun c => rfl
    | cons s stores ih =>
      intro c
      have latest : ([s].lookup key).or (c.load key) = if s.1 = key then some s.2 else c.load key := by
        by_cases same : s.1 = key
        · rw [if_pos same, ← same, List.lookup_cons_self, Option.some_or]
        · have missed : (key == s.1) = false := beq_false_of_ne (Ne.symm same)
          rw [if_neg same, List.lookup_cons, missed, List.lookup_nil, Option.none_or]
      rw [List.foldl_cons, ih, load_store, List.reverse_cons, List.lookup_append, Option.or_assoc, latest]
  have empty : ({} : UnboundedCache β).load key = none := Std.HashMap.getElem?_empty
  rw [ofStores, onto, empty, Option.or_none]

end UnboundedCache

/-- The keys used since the latest use of a key, the latest first. -/
def CacheRequest.usedSince (key : String) (uses : List String) : List String :=
  uses.reverse.takeWhile (· ≠ key)

open CacheRequest in
/-- What a new cache holds after any requests. -/
theorem BoundedCache.contents_of_history {β : Type} (capacity : Nat) (requests : List (CacheRequest β)) :
    let served := serve respond (ofCapacity capacity) requests
    let used := uses requests served.1
    (∀ key, served.2.contains key = true ↔
      (∃ value, .store key value ∈ requests) ∧
        (usedSince key used).toFinset.card < max capacity 1) ∧
    (∀ key, served.2.contains key = true →
      ∃ value, (stores requests).reverse.lookup key = some value ∧
        (served.2.load key).1 = some value ∧
        (UnboundedCache.ofStores (stores requests)).load key = some value) ∧
    served.2.size = min (max capacity 1) ((stores requests).map Prod.fst).toFinset.card := by
  obtain ⟨same, order, represents⟩ := represents_serve requests (.ofCapacity capacity)
  have follows := RecencyList.Follows.serve requests (.ofCapacity capacity)
  rw [← same, List.append_nil, List.append_nil] at follows
  intro served used
  have contains : ∀ key, served.2.contains key = true ↔ key ∈ (recent used.reverse).take (max capacity 1) := by
    intro key
    have asked := CacheAnswer.truth.inj (represents_respond represents (.contains key)).1
    rw [← follows.isSome_find? key, ← asked]
  have stored : ∀ key, key ∈ used.reverse ↔ ∃ value, .store key value ∈ requests := by
    intro key
    rw [follows.stored, List.map_reverse, List.mem_reverse, mem_keys_stores]
  refine ⟨fun key => ?_, fun key holds => ?_, ?_⟩
  · rw [contains, mem_take_recent, stored]
    rfl
  · rw [contains, ← follows.isSome_find? key, Option.isSome_iff_exists] at holds
    obtain ⟨value, found⟩ := holds
    have latest := follows.values key value found
    exact ⟨value, latest, (QueryCache.find?_bounded represents key).trans found,
      (UnboundedCache.load_ofStores _ key).trans latest⟩
  · have counted := CacheAnswer.count.inj (represents_respond represents .size).1
    have same : used.reverse.toFinset = ((stores requests).map Prod.fst).toFinset := by
      refine Finset.ext fun key => ?_
      rw [List.mem_toFinset, List.mem_toFinset, stored, mem_keys_stores]
    rw [← same, ← length_recent, ← List.length_take, ← follows.keys, List.length_map]
    exact counted

open CacheRequest in
/-- A key that is looked up and found stays, and the other one is dropped; a key that is looked up and
    not found does not count. -/
theorem BoundedCache.contents_of_reused :
    let requests : List (CacheRequest Nat) :=
      [.store "a" 1, .store "b" 2, .load "a", .load "d", .store "c" 3]
    let served := serve respond (ofCapacity 2) requests
    served.2.contains "a" = true ∧ served.2.contains "b" = false ∧
      (served.2.load "a").1 = some 1 ∧ served.2.size = 2 := by
  intro requests served
  have used : uses requests served.1 = ["a", "b", "a", "c"] := by
    rw [(represents_serve requests (.ofCapacity 2)).1]
    rfl
  obtain ⟨contains, values, size⟩ := contents_of_history 2 requests
  have kept : served.2.contains "a" = true := by
    refine (contains "a").mpr ⟨⟨1, List.mem_cons_self⟩, ?_⟩
    rw [used]
    decide
  have dropped : ¬ served.2.contains "b" = true := by
    intro kept
    have few := ((contains "b").mp kept).2
    rw [used] at few
    revert few
    decide
  obtain ⟨value, latest, loaded, _⟩ := values "a" kept
  cases latest
  exact ⟨kept, Bool.eq_false_of_not_eq_true dropped, loaded, size⟩

end RecordQuery
