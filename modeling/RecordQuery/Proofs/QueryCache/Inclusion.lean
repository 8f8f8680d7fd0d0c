import RecordQuery.Proofs.QueryCache.Contents

/-!
# Larger caches hold more

Two bounded caches that serve the same requests differ in what they find, and so in what they count as a
use. Still the entries of the smaller one are among those of the larger one, in the same order of use
(`RecencyList.Within`), so that whatever the smaller one finds the larger one finds as well:
`BoundedCache.contents_of_le_capacity`.
-/

namespace RecordQuery

namespace RecencyList

variable {β : Type} {l m : RecencyList β} {key : String} {value v : β}

/-- An entry is the only one under its key, if no key comes twice. -/
theorem fresh_of_nodup {es fs : List (String × β)}
    (once : ((es ++ (key, v) :: fs).map Prod.fst).Nodup) : ∀ e ∈ es ++ fs, e.1 ≠ key := by
  intro e member same
  rw [List.map_append, List.map_cons, List.nodup_middle, ← List.map_append] at once
  apply (List.nodup_cons.mp once).1
  rw [← same]
  exact List.mem_map.mpr ⟨e, member, rfl⟩

/-- An entry that is found among some entries is found among more. -/
theorem find?_of_sublist (once : (m.entries.map Prod.fst).Nodup) (inside : l.entries.Sublist m.entries)
    (found : l.find? key = some v) : m.find? key = some v := by
  obtain ⟨es, fs, split, _⟩ := List.lookup_eq_some_iff.mp found
  have member : (key, v) ∈ m.entries := by
    apply inside.subset
    rw [split]
    exact List.mem_append_right es List.mem_cons_self
  obtain ⟨es', fs', split'⟩ := List.append_of_mem member
  rw [split'] at once
  rw [find?, split', lookup_append_cons (fresh_of_nodup once)]

theorem without_of_absent (absent : l.find? key = none) : without key l.entries = l.entries := by
  apply List.filter_eq_self.mpr
  intro e member
  have differ := List.lookup_eq_none_iff.mp absent e member
  exact decide_eq_true (bne_iff_ne.mp differ).symm

/-- The entries that stay when a value is stored under a key. -/
def others (l : RecencyList β) (key : String) : List (String × β) :=
  if (l.find? key).isSome then without key l.entries
  else if l.entries.length = l.capacity then l.entries.dropLast
  else l.entries

theorem store_eq (l : RecencyList β) (key : String) (value : β) :
    (l.store key value).1 = { l with entries := (key, value) :: l.others key } := by
  unfold store others
  split
  · rfl
  split <;> rfl

/-- Finding an entry is to store it again. -/
theorem load_of_find? (found : l.find? key = some v) : l.load key = (some v, (l.store key v).1) := by
  have present : (l.find? key).isSome := Option.isSome_of_eq_some found
  rw [store_eq, others, if_pos present, load, found]

theorem load_of_absent (absent : l.find? key = none) : l.load key = (none, l) := by
  rw [load, absent]

theorem fst_load (l : RecencyList β) (key : String) : (l.load key).1 = l.find? key := by
  cases found : l.find? key with
  | none => rw [load_of_absent found]
  | some v => rw [load_of_find? found]

theorem others_sublist_without (l : RecencyList β) (key : String) :
    (l.others key).Sublist (without key l.entries) := by
  unfold others
  split
  · exact List.Sublist.refl _
  · next absent =>
    rw [without_of_absent (Option.not_isSome_iff_eq_none.mp absent)]
    split
    · exact List.dropLast_sublist l.entries
    · exact List.Sublist.refl _

/-- No key comes twice after a value was stored. -/
theorem nodup_store (once : (l.entries.map Prod.fst).Nodup) (key : String) (value : β) :
    ((l.store key value).1.entries.map Prod.fst).Nodup := by
  rw [store_eq, List.map_cons, List.nodup_cons]
  have stay := l.others_sublist_without key
  constructor
  · intro member
    obtain ⟨e, inside, same⟩ := List.mem_map.mp member
    have differ := (List.mem_filter.mp (stay.subset inside)).2
    exact of_decide_eq_true differ same
  · exact ((stay.trans List.filter_sublist).map Prod.fst).nodup once

/-- A list is as full after a value was stored as it was before, or has one entry more. -/
theorem length_others (once : (l.entries.map Prod.fst).Nodup) (room : 0 < l.capacity)
    (fits : l.entries.length ≤ l.capacity) (key : String) :
    (l.others key).length < l.capacity ∧
      (l.entries.length = l.capacity → (l.others key).length + 1 = l.capacity) := by
  unfold others
  split
  · next present =>
    obtain ⟨v, found⟩ := Option.isSome_iff_exists.mp present
    obtain ⟨es, fs, split, _⟩ := List.lookup_eq_some_iff.mp found
    rw [split] at once fits ⊢
    rw [without_append_cons (fresh_of_nodup once)]
    simp only [List.length_append, List.length_cons] at fits ⊢
    omega
  · split
    · rw [List.length_dropLast]
      omega
    · omega

theorem sublist_dropLast {τ : Type} {es fs : List τ} (inside : es.Sublist fs) :
    es.dropLast.Sublist fs.dropLast := by
  have reversed := (List.reverse_sublist.mpr inside).tail
  rw [List.tail_reverse, List.tail_reverse] at reversed
  exact List.reverse_sublist.mp reversed

/-- The list `l` is a smaller one that has served the same requests as `m`. -/
structure Within (l m : RecencyList β) : Prop where
  room : 0 < l.capacity
  capacity : l.capacity ≤ m.capacity
  fits : l.entries.length ≤ l.capacity
  once : (m.entries.map Prod.fst).Nodup
  /-- The smaller list has some of the larger one's entries, in their order. -/
  inside : l.entries.Sublist m.entries
  /-- The smaller list has dropped nothing before it was full, and it stays full. -/
  full : l.entries.length = l.capacity ∨ l.entries = m.entries

namespace Within

theorem ofCapacity {small large : Nat} (le : small ≤ large) :
    Within (ofCapacity small : RecencyList β) (ofCapacity large) := by
  refine ⟨?_, ?_, Nat.zero_le _, List.nodup_nil, List.Sublist.refl [], .inr rfl⟩
  · simp only [RecencyList.ofCapacity]
    omega
  · simp only [RecencyList.ofCapacity]
    omega

theorem find? (h : Within l m) (found : l.find? key = some v) : m.find? key = some v :=
  find?_of_sublist h.once h.inside found

theorem find?_eq_none (h : Within l m) (absent : m.find? key = none) : l.find? key = none := by
  cases found : l.find? key with
  | none => rfl
  | some v =>
    rw [h.find? found] at absent
    cases absent

/-- A smaller list that is not full is the larger one, which is not full then either. -/
theorem eq_of_not_full (h : Within l m) (free : l.entries.length ≠ l.capacity) :
    l.entries = m.entries ∧ m.entries.length ≠ m.capacity := by
  have same := h.full.resolve_left free
  have fits := h.fits
  have capacity := h.capacity
  refine ⟨same, ?_⟩
  rw [← same]
  omega

/-- What stays in the smaller list stays in the larger one. -/
theorem others (h : Within l m) (key : String) : (l.others key).Sublist (m.others key) := by
  by_cases present : (m.find? key).isSome
  · -- the larger list drops nothing
    have larger : m.others key = without key m.entries := if_pos present
    rw [larger]
    exact (l.others_sublist_without key).trans (h.inside.filter _)
  · have missed := h.find?_eq_none (Option.not_isSome_iff_eq_none.mp present)
    have absent : ¬ (l.find? key).isSome := Option.not_isSome_iff_eq_none.mpr missed
    rw [RecencyList.others, RecencyList.others, if_neg absent, if_neg present]
    by_cases full : l.entries.length = l.capacity
    · rw [if_pos full]
      split
      · exact sublist_dropLast h.inside
      · exact (List.dropLast_sublist _).trans h.inside
    · obtain ⟨same, free⟩ := h.eq_of_not_full full
      rw [if_neg full, if_neg free, same]

theorem store (h : Within l m) (key : String) (value : β) :
    Within (l.store key value).1 (m.store key value).1 := by
  have once := nodup_store h.once key value
  have stay := h.others key
  have length := length_others ((h.inside.map Prod.fst).nodup h.once) h.room h.fits key
  rw [store_eq, store_eq] at *
  refine ⟨h.room, h.capacity, length.1, once, stay.cons_cons _, ?_⟩
  by_cases full : l.entries.length = l.capacity
  · left
    exact length.2 full
  · right
    obtain ⟨same, free⟩ := h.eq_of_not_full full
    have found : l.find? key = m.find? key := congrArg (List.lookup key) same
    rw [RecencyList.others, RecencyList.others, if_neg full, if_neg free, found, same]

/-- A load may find an entry in the larger list alone, and move it to the front there. -/
theorem load (h : Within l m) (key : String) : Within (l.load key).2 (m.load key).2 := by
  cases found : l.find? key with
  | some v =>
    rw [load_of_find? found, load_of_find? (h.find? found)]
    exact h.store key v
  | none =>
    rw [load_of_absent found]
    cases larger : m.find? key with
    | none =>
      rw [load_of_absent larger]
      exact h
    | some v =>
      have once := nodup_store h.once key v
      rw [load_of_find? larger]
      have kept : m.others key = without key m.entries := if_pos (Option.isSome_of_eq_some larger)
      rw [store_eq, kept] at once ⊢
      refine ⟨h.room, h.capacity, h.fits, once, ?_, ?_⟩
      · have stay := h.inside.filter fun e => e.1 ≠ key
        have same : l.entries.filter (fun e => e.1 ≠ key) = l.entries := without_of_absent found
        rw [same] at stay
        exact stay.cons (key, v)
      · left
        apply h.full.resolve_right
        intro same
        have both : l.find? key = m.find? key := congrArg (List.lookup key) same
        rw [found, larger] at both
        cases both

theorem respond (h : Within l m) (request : CacheRequest β) :
    Within (l.respond request).2 (m.respond request).2 := by
  cases request with
  | load key => exact h.load key
  | store key value => exact h.store key value
  | contains _ | size | isEmpty => exact h

/-- The entries of the smaller list stay among those of the larger one, and so whatever it finds is found
    there too. -/
theorem serve (requests : List (CacheRequest β)) :
    ∀ {l m : RecencyList β}, Within l m →
      Within (CacheRequest.serve RecencyList.respond l requests).2
          (CacheRequest.serve RecencyList.respond m requests).2 ∧
        ∀ (i : Nat) (v : β), (CacheRequest.serve RecencyList.respond l requests).1[i]? =
            some (.found (some v)) →
          (CacheRequest.serve RecencyList.respond m requests).1[i]? = some (.found (some v)) := by
  induction requests with
  | nil =>
    intro l m h
    refine ⟨h, ?_⟩
    intro i v answer
    simp [CacheRequest.serve] at answer
  | cons request requests ih =>
    intro l m h
    obtain ⟨after, others⟩ := ih (h.respond request)
    refine ⟨after, ?_⟩
    intro i v answer
    cases i with
    | succ i => exact others i v answer
    | zero =>
      simp only [CacheRequest.serve, List.getElem?_cons_zero, Option.some.injEq] at answer ⊢
      cases request with
      | load key =>
        have loaded : (l.load key).1 = some v := CacheAnswer.found.inj answer
        rw [fst_load] at loaded
        exact congrArg CacheAnswer.found ((m.fst_load key).trans (h.find? loaded))
      | store _ _ | contains _ | size | isEmpty => cases answer

end Within

end RecencyList

namespace BoundedCache

variable {β : Type}

/-- Of two new caches that serve the same requests, the one with the greater capacity holds at any time
    all that the other one holds, under the same keys, and each load that finds a value in the other one
    finds the same value in it. -/
theorem contents_of_le_capacity {small large : Nat} (le : small ≤ large)
    (requests : List (CacheRequest β)) :
    let smaller := CacheRequest.serve respond (ofCapacity small) requests
    let larger := CacheRequest.serve respond (ofCapacity large) requests
    (∀ key, smaller.2.contains key = true →
      ∃ value, (smaller.2.load key).1 = some value ∧
        larger.2.contains key = true ∧ (larger.2.load key).1 = some value) ∧
    ∀ (i : Nat) (value : β), smaller.1[i]? = some (.found (some value)) →
      larger.1[i]? = some (.found (some value)) := by
  intro smaller larger
  obtain ⟨sameSmall, _, representsSmall⟩ := represents_serve requests (.ofCapacity (β := β) small)
  obtain ⟨sameLarge, _, representsLarge⟩ := represents_serve requests (.ofCapacity (β := β) large)
  obtain ⟨within, answers⟩ := RecencyList.Within.serve requests (.ofCapacity (β := β) le)
  constructor
  · intro key holds
    have listed := CacheAnswer.truth.inj (represents_respond representsSmall (.contains key)).1
    rw [holds, eq_comm, Option.isSome_iff_exists] at listed
    obtain ⟨value, found⟩ := listed
    have found' := within.find? found
    refine ⟨value, ?_, ?_, ?_⟩
    · rw [(representsSmall.load key).1, RecencyList.fst_load, found]
    · have listed' := CacheAnswer.truth.inj (represents_respond representsLarge (.contains key)).1
      rw [found'] at listed'
      exact listed'
    · rw [(representsLarge.load key).1, RecencyList.fst_load, found']
  · intro i value answer
    rw [sameSmall] at answer
    rw [sameLarge]
    exact answers i value answer

/-- An entry that the smaller cache has dropped is found in the larger one alone, and what the smaller
    one finds the larger one finds too. -/
theorem contents_of_capacity_two :
    let requests : List (CacheRequest Nat) := [.store "a" 1, .store "b" 2, .load "a", .load "b"]
    let smaller := CacheRequest.serve respond (ofCapacity 1) requests
    let larger := CacheRequest.serve respond (ofCapacity 2) requests
    1 ≤ 2 ∧ smaller.1[2]? = some (.found none) ∧ larger.1[2]? = some (.found (some 1)) ∧
      smaller.1[3]? = some (.found (some 2)) ∧ larger.1[3]? = some (.found (some 2)) ∧
      smaller.2.contains "b" = true ∧ larger.2.contains "b" = true ∧
      (larger.2.load "b").1 = (smaller.2.load "b").1 := by
  intro requests smaller larger
  obtain ⟨sameSmall, _, represents⟩ := represents_serve requests (.ofCapacity 1)
  obtain ⟨sameLarge, _⟩ := represents_serve requests (.ofCapacity 2)
  have missed : smaller.1[2]? = some (.found none) := by
    rw [sameSmall]
    rfl
  have hit : larger.1[2]? = some (.found (some 1)) := by
    rw [sameLarge]
    rfl
  have both : smaller.1[3]? = some (.found (some 2)) := by
    rw [sameSmall]
    rfl
  have holds : smaller.2.contains "b" = true :=
    CacheAnswer.truth.inj (represents_respond represents (.contains "b")).1
  obtain ⟨contents, answers⟩ := contents_of_le_capacity (show 1 ≤ 2 by decide) requests
  obtain ⟨value, loaded, holds', loaded'⟩ := contents "b" holds
  exact ⟨by decide, missed, hit, both, answers 3 2 both, holds, holds', loaded'.trans loaded.symm⟩

end BoundedCache

end RecordQuery
