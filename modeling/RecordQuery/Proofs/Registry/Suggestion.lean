import Mathlib
import RecordQuery.Proofs.Text.Lowercase
import RecordQuery.Proofs.Token.Vocabulary
import RecordQuery.Registry.Suggestion

/-!
# The best match

A candidate is taken if none comes before it in the order of distances, and of names where these are
equal (`bestMatch_eq_some_iff`). So the suggestion for a name is what `IsSuggestion` says in terms of
edits (`suggestName_eq_some_iff`), and depends on which names there are, not on their order
(`suggestName_congr`).
-/

namespace RecordQuery

/-- The order in which candidates are taken. -/
theorem isBetterMatch_iff (a b : Nat × String) : isBetterMatch a b = true ↔ toLex a < toLex b := by
  rw [isBetterMatch, Bool.or_eq_true, Bool.and_eq_true, decide_eq_true_eq, decide_eq_true_eq,
    beq_iff_eq, Prod.Lex.toLex_lt_toLex]

theorem bestMatch_spec (as : List (Nat × String)) :
    (bestMatch as = none ∧ as = []) ∨
      ∃ a, bestMatch as = some a ∧ a ∈ as ∧ ∀ b ∈ as, toLex a ≤ toLex b := by
  induction as with
  | nil => exact .inl ⟨rfl, rfl⟩
  | cons a rest ih =>
    refine .inr ?_
    -- the candidate gives way only to a better match of the others
    rcases ih with ⟨none, rfl⟩ | ⟨b, found, member, least⟩
    · exact ⟨a, rfl, List.mem_cons_self, List.forall_mem_cons.mpr ⟨le_rfl, List.forall_mem_nil _⟩⟩
    · rw [bestMatch, found]
      by_cases better : isBetterMatch b a = true
      · have before := (isBetterMatch_iff b a).mp better
        exact ⟨b, if_pos better, List.mem_cons_of_mem a member,
          List.forall_mem_cons.mpr ⟨before.le, least⟩⟩
      · have after := not_lt.mp fun before => better ((isBetterMatch_iff b a).mpr before)
        exact ⟨a, if_neg better, List.mem_cons_self,
          List.forall_mem_cons.mpr ⟨le_rfl, fun c other => after.trans (least c other)⟩⟩

/-- The match is the least candidate. -/
theorem bestMatch_eq_some_iff {as : List (Nat × String)} {a : Nat × String} :
    bestMatch as = some a ↔ a ∈ as ∧ ∀ b ∈ as, toLex a ≤ toLex b := by
  rcases bestMatch_spec as with ⟨none, rfl⟩ | ⟨b, found, member, least⟩
  · simp [bestMatch]
  · rw [found, Option.some.injEq]
    constructor
    · rintro rfl
      exact ⟨member, least⟩
    · rintro ⟨member', least'⟩
      exact toLex_inj.mp (le_antisymm (least a member') (least' b member))

/-- The match depends on which candidates there are, not on their order. -/
theorem bestMatch_congr {as bs : List (Nat × String)} (same : ∀ a, a ∈ as ↔ a ∈ bs) :
    bestMatch as = bestMatch bs := by
  refine Option.ext fun a => ?_
  simp only [bestMatch_eq_some_iff, same]

/-- It takes `d` edits and no fewer to turn a lower-case form of the one name into a lower-case form of
    the other, whichever of their forms these are. -/
def AtDistance (a b : String) (d : Nat) : Prop :=
  ∀ xs ys, Text.IsLowercase a.toList xs → Text.IsLowercase b.toList ys →
    IsLeast {n | Text.Edits n xs ys} d

theorem IsName.isAscii {s : String} (named : IsName s) : Text.IsAscii s.toList := by
  obtain ⟨c, cs, shape, start, parts⟩ := named.shape
  rw [shape]
  refine List.forall_mem_cons.mpr ⟨?_, fun d member => ?_⟩
  · have := toNat_of_isNameStart start
    omega
  · have := toNat_of_isNamePart (parts d member)
    omega

/-- The distance of a name of the language from another name is the number of edits between them. -/
theorem atDistance_iff {name other : String} {d : Nat} (named : IsName name) :
    AtDistance name other d ↔ nameDistance name other = d := by
  constructor
  · intro distant
    exact (Text.isLeast_editDistance _ _).unique
      (distant _ _ (Text.isLowercase_lowercase _) (Text.isLowercase_lowercase _))
  · rintro rfl xs ys left right
    rw [nameDistance, ← left.editDistance_eq named.isAscii right]
    exact Text.isLeast_editDistance xs ys

/-- What makes a name the one to suggest for another: it is registered and not empty, it is between one
    and three edits away, no other such name is nearer, and none that is as near comes before it. -/
structure IsSuggestion (name : String) (names : List String) (best : String) : Prop where
  registered : best ∈ names
  nonempty : best ≠ ""
  nearest : ∃ d, AtDistance name best d ∧ 1 ≤ d ∧ d ≤ 3 ∧
    ∀ other ∈ names, other ≠ "" → ∃ e, AtDistance name other e ∧ d ≤ e ∧ (e = d → best ≤ other)

section Suggest

variable {name best : String} {names others : List String} {a : Nat × String}

/-- The registered names but the empty one, with their distances from a name. -/
def candidates (name : String) (names : List String) : List (Nat × String) :=
  (names.filter fun c => !c.isEmpty).map fun c => (nameDistance name c, c)

theorem mem_candidates :
    a ∈ candidates name names ↔ a.2 ∈ names ∧ a.2 ≠ "" ∧ nameDistance name a.2 = a.1 := by
  simp only [candidates, List.mem_map, List.mem_filter, Bool.not_eq_true', Prod.ext_iff, and_assoc]
  constructor
  · rintro ⟨c, member, nonempty, distance, rfl⟩
    exact ⟨member, by simpa using nonempty, distance⟩
  · rintro ⟨member, nonempty, distance⟩
    exact ⟨a.2, member, by simpa using nonempty, distance, rfl⟩

/-- The limits are those of the nearest candidate: no other one takes its place. -/
theorem suggestName_eq (name : String) (names : List String) :
    suggestName name names = ((bestMatch (candidates name names)).filter
      fun a => 0 < a.1 && a.1 ≤ maxSuggestionDistance).map Prod.snd := by
  rw [suggestName, candidates]
  cases bestMatch _ with
  | none => rfl
  | some a => rw [Option.filter_some, apply_ite (Option.map Prod.snd), Option.map_some, Option.map_none]

/-- The suggestion for a name of the language is the nearest registered name, if it is near enough. -/
theorem suggestName_eq_some_iff (named : IsName name) :
    suggestName name names = some best ↔ IsSuggestion name names best := by
  simp only [suggestName_eq, Option.map_eq_some_iff, Option.filter_eq_some_iff, bestMatch_eq_some_iff,
    mem_candidates, Prod.Lex.toLex_le_toLex, Bool.and_eq_true, decide_eq_true_eq]
  constructor
  · rintro ⟨⟨d, c⟩, ⟨⟨⟨member, nonempty, distance⟩, least⟩, near, limit⟩, rfl⟩
    refine ⟨member, nonempty, d, (atDistance_iff named).mpr distance, near, limit, ?_⟩
    intro other member' nonempty'
    refine ⟨nameDistance name other, (atDistance_iff named).mpr rfl, ?_⟩
    rcases least (nameDistance name other, other) ⟨member', nonempty', rfl⟩ with nearer | ⟨equal, first⟩
    · exact ⟨nearer.le, fun equal => absurd equal nearer.ne'⟩
    · exact ⟨equal.le, fun _ => first⟩
  · rintro ⟨member, nonempty, d, distance, near, limit, least⟩
    refine ⟨(d, best), ⟨⟨⟨member, nonempty, (atDistance_iff named).mp distance⟩, ?_⟩, near, limit⟩, rfl⟩
    rintro ⟨e, other⟩ ⟨member', nonempty', distance'⟩
    obtain ⟨e', found, le, first⟩ := least other member' nonempty'
    obtain rfl : e' = e := ((atDistance_iff named).mp found).symm.trans distance'
    rcases le.lt_or_eq with nearer | equal
    · exact .inl nearer
    · exact .inr ⟨equal, first equal.symm⟩

/-- A name that differs by letter case alone is not suggested, and neither is one that is farther away. -/
example : suggestName "REC" ["recs", "rec"] = none := by cbv

/-- The suggestion depends on which names are registered, not on their order. -/
theorem suggestName_congr (same : ∀ c, c ∈ names ↔ c ∈ others) :
    suggestName name names = suggestName name others := by
  have candidate : ∀ a, a ∈ candidates name names ↔ a ∈ candidates name others := by
    intro a
    rw [mem_candidates, mem_candidates, same]
  rw [suggestName_eq, suggestName_eq, bestMatch_congr candidate]

end Suggest

end RecordQuery
