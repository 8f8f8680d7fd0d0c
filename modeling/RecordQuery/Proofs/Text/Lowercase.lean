import Mathlib.Data.List.Forall2
import RecordQuery.Proofs.Text.Edits
import RecordQuery.Proofs.Token.Layout
import RecordQuery.Text.Lowercase

/-!
# Distances in lower case

In lower case a capital sigma is written in one of two ways, as a letter inside a word or as the last one
of it. `IsLowercase` allows both anywhere. They make no difference to the distance from a text of ASCII
letters, as neither of them is such a letter: `IsLowercase.editDistance_eq`.
-/

namespace RecordQuery.Text

/-- A text and one of its lower-case forms. -/
inductive IsLowercase : List Char → List Char → Prop
  | nil : IsLowercase [] []
  | letter {cs ds : List Char} (c : Char) (rest : IsLowercase cs ds) :
      IsLowercase (c :: cs) (lowercaseChar c ++ ds)
  | finalSigma {cs ds : List Char} (rest : IsLowercase cs ds) : IsLowercase ('Σ' :: cs) ('ς' :: ds)

/-- The texts of ASCII characters. -/
def IsAscii (cs : List Char) : Prop :=
  ∀ c ∈ cs, c.toNat < 0x80

theorem lowercaseChar_sigma : lowercaseChar 'Σ' = ['σ'] := by
  decide +kernel

theorem isLowercase_lowercaseAfter (before cs : List Char) :
    IsLowercase cs (lowercaseAfter before cs) := by
  induction cs generalizing before with
  | nil => exact .nil
  | cons c cs ih =>
    rw [lowercaseAfter, lowercaseBetween]
    by_cases sigma : c = 'Σ'
    · subst sigma
      rw [if_pos rfl]
      split
      · exact .finalSigma (ih _)
      · rw [← lowercaseChar_sigma]
        exact .letter 'Σ' (ih _)
    · rw [if_neg sigma]
      exact .letter c (ih _)

theorem isLowercase_lowercase (cs : List Char) : IsLowercase cs (lowercase cs) :=
  isLowercase_lowercaseAfter [] cs

theorem toNat_toLower_lt {c : Char} (ascii : c.toNat < 0x80) : c.toLower.toNat < 0x80 := by
  rcases toLower_cases c with same | ⟨_, letter⟩
  · rwa [same]
  · rcases Bool.or_eq_true_iff.mp letter with upper | lower
    · have := toNat_of_isUpper upper
      omega
    · have := toNat_of_isLower lower
      omega

namespace IsLowercase

variable {cs ds es fs : List Char}

/-- A text of ASCII characters has one lower-case form, which is ASCII too. -/
theorem of_isAscii (form : IsLowercase cs ds) (ascii : IsAscii cs) :
    ds = cs.flatMap lowercaseChar ∧ IsAscii ds := by
  induction form with
  | nil => exact ⟨rfl, List.forall_mem_nil _⟩
  | @letter cs ds c rest ih =>
    obtain ⟨first, others⟩ := List.forall_mem_cons.mp ascii
    obtain ⟨rfl, lower⟩ := ih others
    have alone : lowercaseChar c = [c.toLower] := if_pos first
    refine ⟨rfl, ?_⟩
    rw [alone]
    exact List.forall_mem_cons.mpr ⟨toNat_toLower_lt first, lower⟩
  | finalSigma => exact absurd (ascii 'Σ' List.mem_cons_self) (by decide)

/-- A lower-case form of a text has the same ASCII characters as that without final sigmas. -/
theorem agree (form : IsLowercase cs ds) :
    List.Forall₂ (fun d e => d = e ∨ 0x80 ≤ d.toNat ∧ 0x80 ≤ e.toNat) ds
      (cs.flatMap lowercaseChar) := by
  induction form with
  | nil => exact .nil
  | letter c _ ih => exact List.rel_append (List.forall₂_same.mpr fun _ _ => .inl rfl) ih
  | finalSigma _ ih =>
    rw [List.flatMap_cons, lowercaseChar_sigma]
    exact .cons (.inr (by decide)) ih

theorem editDistance_eq_flatMap (ascii : IsAscii cs) (left : IsLowercase cs ds)
    (right : IsLowercase es fs) :
    editDistance ds fs =
      editDistance (cs.flatMap lowercaseChar) (es.flatMap lowercaseChar) := by
  obtain ⟨rfl, lower⟩ := left.of_isAscii ascii
  refine editDistance_congr (right.agree.imp fun y z alike x member => ?_)
  have := lower x member
  rcases alike with rfl | ⟨outside, outside'⟩
  · rfl
  · constructor <;> rintro rfl <;> omega

/-- Of a text of ASCII characters and another text, all lower-case forms are equally far apart. -/
theorem editDistance_eq (ascii : IsAscii cs) (left : IsLowercase cs ds) (right : IsLowercase es fs) :
    editDistance ds fs = editDistance (lowercase cs) (lowercase es) :=
  calc editDistance ds fs
    _ = editDistance (cs.flatMap lowercaseChar) (es.flatMap lowercaseChar) :=
      left.editDistance_eq_flatMap ascii right
    _ = editDistance (lowercase cs) (lowercase es) :=
      ((isLowercase_lowercase cs).editDistance_eq_flatMap ascii (isLowercase_lowercase es)).symm

end IsLowercase

end RecordQuery.Text
