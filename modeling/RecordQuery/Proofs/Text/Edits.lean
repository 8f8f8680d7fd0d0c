import Mathlib.Data.List.Forall2
import Mathlib.Order.Bounds.Basic
import Mathlib.Order.MinMax
import RecordQuery.Text.EditDistance

/-!
# Edits

What the edit distance of two texts counts: the edits that it takes to turn the one into the other, each
of which inserts, deletes or replaces one character at any place. `isLeast_editDistance` says that no
fewer edits do. One edit of a text changes its distances by one at most (`Edit.editDistance_le`), and the
recursion of the distance is one way to use up as many edits as it counts (`edits_editDistance`).
-/

namespace RecordQuery.Text

/-- A text and the same text after one edit. -/
inductive Edit : List Char → List Char → Prop
  | insert (before : List Char) (c : Char) (after : List Char) :
      Edit (before ++ after) (before ++ c :: after)
  | delete (before : List Char) (c : Char) (after : List Char) :
      Edit (before ++ c :: after) (before ++ after)
  | substitute (before : List Char) (c d : Char) (after : List Char) :
      Edit (before ++ c :: after) (before ++ d :: after)

/-- So many edits turn the first text into the second. -/
inductive Edits : Nat → List Char → List Char → Prop
  | none (xs : List Char) : Edits 0 xs xs
  | more {n : Nat} {xs ys zs : List Char} (first : Edit xs ys) (rest : Edits n ys zs) :
      Edits (n + 1) xs zs

section Distance

variable {x y : Char} {xs ys zs : List Char}

theorem editDistance_nil_right (xs : List Char) : editDistance xs [] = xs.length := by
  induction xs with
  | nil => rfl
  | cons x xs ih => rw [editDistance_cons_nil, ih, List.length_cons]

theorem editDistance_self (xs : List Char) : editDistance xs xs = 0 := by
  induction xs with
  | nil => rfl
  | cons x xs ih => rw [editDistance_cons_cons, if_pos rfl, ih]

theorem editDistance_comm (xs ys : List Char) : editDistance xs ys = editDistance ys xs := by
  induction xs generalizing ys with
  | nil => rw [editDistance_nil, editDistance_nil_right]
  | cons x xs ih =>
    induction ys with
    | nil => rw [editDistance_nil, editDistance_nil_right]
    | cons y ys ihy =>
      rw [editDistance_cons_cons, editDistance_cons_cons, ih, ih, ihy,
        min_comm (editDistance (y :: ys) xs)]
      exact if_congr eq_comm rfl rfl

/-- A first character costs no more than its insertion, if that is so of every text after it. -/
theorem editDistance_le_of_cons (inserts : ∀ y ys, editDistance xs (y :: ys) ≤ editDistance xs ys + 1)
    (x : Char) (ys : List Char) : editDistance xs ys ≤ editDistance (x :: xs) ys + 1 := by
  induction ys with
  | nil =>
    rw [editDistance_cons_nil]
    omega
  | cons y ys ih =>
    have := inserts y ys
    rw [editDistance_cons_cons]
    split <;> omega

theorem editDistance_cons_right_le (xs : List Char) (y : Char) (ys : List Char) :
    editDistance xs (y :: ys) ≤ editDistance xs ys + 1 := by
  induction xs generalizing y ys with
  | nil => rw [editDistance_nil, editDistance_nil, List.length_cons]
  | cons x xs ih =>
    -- where the first characters agree, leaving them out must not make the texts differ more
    have := editDistance_le_of_cons ih x ys
    rw [editDistance_cons_cons]
    split <;> omega

theorem editDistance_cons_left_le (x : Char) (xs ys : List Char) :
    editDistance (x :: xs) ys ≤ editDistance xs ys + 1 := by
  rw [editDistance_comm, editDistance_comm xs]
  exact editDistance_cons_right_le ys x xs

theorem editDistance_le_cons_left (x : Char) (xs ys : List Char) :
    editDistance xs ys ≤ editDistance (x :: xs) ys + 1 :=
  editDistance_le_of_cons (editDistance_cons_right_le xs) x ys

/-- First characters that differ are replaced at the cost of one edit at most. -/
theorem editDistance_cons_cons_le (x y : Char) (xs ys : List Char) :
    editDistance (x :: xs) (y :: ys) ≤ editDistance xs ys + 1 := by
  rw [editDistance_cons_cons]
  split <;> omega

theorem editDistance_substitute_le (x y : Char) (xs zs : List Char) :
    editDistance (x :: xs) zs ≤ editDistance (y :: xs) zs + 1 := by
  induction zs with
  | nil =>
    rw [editDistance_cons_nil, editDistance_cons_nil]
    omega
  | cons z zs ih =>
    have := editDistance_cons_cons_le x z xs zs
    have := editDistance_cons_left_le x xs (z :: zs)
    have := editDistance_cons_right_le (x :: xs) z zs
    rw [editDistance_cons_cons y]
    split <;> omega

/-- A character before both texts leaves the difference of their distances within one. -/
theorem editDistance_le_of_tail (near : ∀ zs, editDistance xs zs ≤ editDistance ys zs + 1) (c : Char)
    (zs : List Char) : editDistance (c :: xs) zs ≤ editDistance (c :: ys) zs + 1 := by
  induction zs with
  | nil =>
    rw [editDistance_cons_nil, editDistance_cons_nil]
    have := near []
    omega
  | cons z zs ih =>
    have := near zs
    have := near (z :: zs)
    rw [editDistance_cons_cons, editDistance_cons_cons]
    split <;> omega

theorem editDistance_le_of_append (near : ∀ zs, editDistance xs zs ≤ editDistance ys zs + 1)
    (before zs : List Char) :
    editDistance (before ++ xs) zs ≤ editDistance (before ++ ys) zs + 1 := by
  induction before generalizing zs with
  | nil => exact near zs
  | cons c before ih => exact editDistance_le_of_tail ih c zs

/-- An edit brings a text no more than one nearer to any other. -/
theorem Edit.editDistance_le (edit : Edit xs ys) (zs : List Char) :
    editDistance xs zs ≤ editDistance ys zs + 1 := by
  cases edit with
  | insert before c after =>
    exact editDistance_le_of_append (editDistance_le_cons_left c after) before zs
  | delete before c after =>
    exact editDistance_le_of_append (editDistance_cons_left_le c after) before zs
  | substitute before c d after =>
    exact editDistance_le_of_append (editDistance_substitute_le c d after) before zs

end Distance

namespace Edits

variable {n : Nat} {xs ys : List Char}

theorem editDistance_le (edits : Edits n xs ys) : editDistance xs ys ≤ n := by
  induction edits with
  | none xs => exact (editDistance_self xs).le
  | more first _ ih => exact (first.editDistance_le _).trans (Nat.succ_le_succ ih)

/-- Texts are edited behind a common first character as they are alone. -/
theorem cons (c : Char) (edits : Edits n xs ys) : Edits n (c :: xs) (c :: ys) := by
  induction edits with
  | none xs => exact .none (c :: xs)
  | more first _ ih =>
    refine .more ?_ ih
    cases first with
    | insert before d after => exact .insert (c :: before) d after
    | delete before d after => exact .delete (c :: before) d after
    | substitute before d e after => exact .substitute (c :: before) d e after

theorem insert_cons (edits : Edits n xs ys) (y : Char) : Edits (n + 1) xs (y :: ys) :=
  .more (.insert [] y xs) (edits.cons y)

theorem delete_cons (edits : Edits n xs ys) (x : Char) : Edits (n + 1) (x :: xs) ys :=
  .more (.delete [] x xs) edits

theorem substitute_cons (edits : Edits n xs ys) (x y : Char) : Edits (n + 1) (x :: xs) (y :: ys) :=
  .more (.substitute [] x y xs) (edits.cons y)

/-- Of two numbers of edits the smaller one is enough. -/
theorem min {m : Nat} (left : Edits (m + 1) xs ys) (right : Edits (n + 1) xs ys) :
    Edits (Min.min m n + 1) xs ys := by
  rcases min_choice m n with least | least <;> rwa [least]

end Edits

/-- A text is turned into another one in as many edits as they are apart. -/
theorem edits_editDistance (xs ys : List Char) : Edits (editDistance xs ys) xs ys := by
  induction xs generalizing ys with
  | nil =>
    rw [editDistance_nil]
    induction ys with
    | nil => exact .none []
    | cons y ys ihy => exact ihy.insert_cons y
  | cons x xs ih =>
    induction ys with
    | nil => exact (ih []).delete_cons x
    | cons y ys ihy =>
      rw [editDistance_cons_cons]
      split
      · next same => exact same ▸ (ih ys).cons x
      · exact .min (.min ((ih (y :: ys)).delete_cons x) (ihy.insert_cons y)) ((ih ys).substitute_cons x y)

/-- The edit distance of two texts is the least number of edits that turn the one into the other. -/
theorem isLeast_editDistance (xs ys : List Char) :
    IsLeast {n | Edits n xs ys} (editDistance xs ys) :=
  ⟨edits_editDistance xs ys, fun _ edits => edits.editDistance_le⟩

/-- The distance to a text depends on nothing but where its characters agree with those of the other. -/
theorem editDistance_congr {xs ys zs : List Char}
    (alike : List.Forall₂ (fun y z => ∀ x ∈ xs, x = y ↔ x = z) ys zs) :
    editDistance xs ys = editDistance xs zs := by
  induction xs generalizing ys zs with
  | nil => rw [editDistance_nil, editDistance_nil, alike.length_eq]
  | cons x xs ih =>
    have shorter : ∀ {ys zs : List Char},
        List.Forall₂ (fun y z => ∀ c ∈ x :: xs, c = y ↔ c = z) ys zs →
          editDistance xs ys = editDistance xs zs :=
      fun alike => ih (alike.imp fun _ _ agree c member => agree c (List.mem_cons_of_mem x member))
    induction alike with
    | nil => rfl
    | @cons y z ys zs agree rest ihy =>
      rw [editDistance_cons_cons, editDistance_cons_cons, shorter rest, shorter (.cons agree rest), ihy]
      exact if_congr (agree x List.mem_cons_self) rfl rfl

end RecordQuery.Text
