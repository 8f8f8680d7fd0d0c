import Mathlib
import RecordQuery.Text.Quoted

/-!
# Quoted texts are told apart

Nothing is lost when a text is quoted: `quote_injective`. Each character is written as itself or as an
escape, and what follows cannot be taken for a part of it (`quoteChar_append_inj`). The quote that ends a
text does not stand inside it as it is, and neither does a newline.
-/

namespace RecordQuery.Text

/-- What comes before the first mark of its kind, and what comes after it, are told by the whole. -/
theorem append_cons_inj {τ : Type} {mark : τ} {xs xs' ys ys' : List τ} (absent : mark ∉ xs)
    (absent' : mark ∉ xs') (same : xs ++ mark :: ys = xs' ++ mark :: ys') : xs = xs' ∧ ys = ys' := by
  induction xs generalizing xs' with
  | nil =>
    cases xs' with
    | nil => exact ⟨rfl, (List.cons.inj same).2⟩
    | cons x xs' =>
      obtain ⟨rfl, _⟩ := List.cons.inj same
      exact absurd List.mem_cons_self absent'
  | cons x xs ih =>
    cases xs' with
    | nil =>
      obtain ⟨rfl, _⟩ := List.cons.inj same
      exact absurd List.mem_cons_self absent
    | cons x' xs' =>
      obtain ⟨rfl, rest⟩ := List.cons.inj same
      obtain ⟨rfl, after⟩ := ih (List.not_mem_of_not_mem_cons absent)
        (List.not_mem_of_not_mem_cons absent') rest
      exact ⟨rfl, after⟩

section Hexadecimal

theorem digitChar_inj : ∀ m < 16, ∀ n < 16, m.digitChar = n.digitChar → m = n := by
  decide

/-- A number is told by its digits. -/
theorem toDigits_injective : Function.Injective (Nat.toDigits 16) := by
  intro m
  induction m using Nat.strong_induction_on with
  | h m ih =>
    intro n same
    by_cases hm : m < 16
    · by_cases hn : n < 16
      · rw [Nat.toDigits_of_lt_base hm, Nat.toDigits_of_lt_base hn] at same
        exact digitChar_inj m hm n hn (List.singleton_inj.mp same)
      · rw [Nat.toDigits_of_lt_base hm, Nat.toDigits_of_base_le (by decide) (Nat.not_lt.mp hn),
          List.singleton_eq_append_iff] at same
        simp [Nat.toDigits_ne_nil] at same
    · by_cases hn : n < 16
      · rw [Nat.toDigits_of_lt_base hn, Nat.toDigits_of_base_le (by decide) (Nat.not_lt.mp hm),
          List.append_eq_singleton_iff] at same
        simp [Nat.toDigits_ne_nil] at same
      · rw [Nat.toDigits_of_base_le (by decide) (Nat.not_lt.mp hm),
          Nat.toDigits_of_base_le (by decide) (Nat.not_lt.mp hn)] at same
        obtain ⟨front, last⟩ := List.append_inj' same rfl
        have quotient := ih (m / 16) (by omega) front
        have remainder := digitChar_inj (m % 16) (Nat.mod_lt m (by decide)) (n % 16)
          (Nat.mod_lt n (by decide)) (List.singleton_inj.mp last)
        omega

theorem isAlphanum_of_mem_toDigits {n : Nat} {c : Char} (member : c ∈ Nat.toDigits 16 n) :
    c.isAlphanum = true := by
  have digit : ∀ m < 16, m.digitChar.isAlphanum = true := by decide
  induction n using Nat.strong_induction_on with
  | h n ih =>
    by_cases small : n < 16
    · rw [Nat.toDigits_of_lt_base small, List.mem_singleton] at member
      rw [member]
      exact digit n small
    · rw [Nat.toDigits_of_base_le (by decide) (Nat.not_lt.mp small)] at member
      rcases List.mem_append.mp member with front | last
      · exact ih (n / 16) (by omega) front
      · rw [List.mem_singleton.mp last]
        exact digit (n % 16) (Nat.mod_lt n (by decide))

end Hexadecimal

/-- The characters that have an escape of two characters, with the second one of it. -/
def shortEscapes : List (Char × Char) :=
  [('"', '"'), ('\\', '\\'), ('\t', 't'), ('\n', 'n'), ('\r', 'r'), ('\x00', '0')]

/-- The ways in which a character is quoted. -/
inductive Quotes (c : Char) : List Char → Prop
  | plain (notQuote : c ≠ '"') (notBackslash : c ≠ '\\') (notNewline : c ≠ '\n') : Quotes c [c]
  | short {e : Char} (member : (c, e) ∈ shortEscapes) : Quotes c ['\\', e]
  | codePoint : Quotes c (codePointEscape c)

theorem quotes_quoteChar (c : Char) : Quotes c (quoteChar c) := by
  unfold quoteChar
  split_ifs with quote backslash tab newline carriage zero shown
  · exact .short (by simp [quote, shortEscapes])
  · exact .short (by simp [backslash, shortEscapes])
  · exact .short (by simp [tab, shortEscapes])
  · exact .short (by simp [newline, shortEscapes])
  · exact .short (by simp [carriage, shortEscapes])
  · exact .short (by simp [zero, shortEscapes])
  · exact .plain quote backslash newline
  · exact .codePoint

theorem shortEscapes_inj : ∀ p ∈ shortEscapes, ∀ q ∈ shortEscapes, p.2 = q.2 → p.1 = q.1 := by
  decide

theorem ne_of_mem_shortEscapes : ∀ p ∈ shortEscapes, p.2 ≠ 'u' := by
  decide

theorem codePointEscape_append (c : Char) (x : List Char) : codePointEscape c ++ x =
    '\\' :: 'u' :: '\x7b' :: (Nat.toDigits 16 c.toNat ++ '\x7d' :: x) := by
  simp [codePointEscape]

theorem codePointEscape_append_inj {c d : Char} {x y : List Char}
    (same : codePointEscape c ++ x = codePointEscape d ++ y) : c = d ∧ x = y := by
  have noBrace (n : Nat) : '\x7d' ∉ Nat.toDigits 16 n := by
    intro member
    exact absurd (isAlphanum_of_mem_toDigits member) (by decide)
  simp only [codePointEscape_append, List.cons.injEq, true_and] at same
  obtain ⟨digits, rest⟩ := append_cons_inj (noBrace _) (noBrace _) same
  exact ⟨Char.toNat_inj.mp (toDigits_injective digits), rest⟩

/-- A quoted character shows where it ends. -/
theorem quoteChar_append_inj {c d : Char} {x y : List Char}
    (same : quoteChar c ++ x = quoteChar d ++ y) : c = d ∧ x = y := by
  have left := quotes_quoteChar c
  have right := quotes_quoteChar d
  generalize quoteChar c = cs at same left
  generalize quoteChar d = ds at same right
  cases left with
  | plain _ notBackslash =>
    cases right with
    | plain => exact List.cons.inj same
    | short => exact absurd (List.cons.inj same).1 notBackslash
    | codePoint =>
      rw [codePointEscape_append] at same
      exact absurd (List.cons.inj same).1 notBackslash
  | short member =>
    cases right with
    | plain _ notBackslash => exact absurd (List.cons.inj same).1.symm notBackslash
    | short member' =>
      obtain ⟨_, same⟩ := List.cons.inj same
      obtain ⟨escape, rest⟩ := List.cons.inj same
      exact ⟨shortEscapes_inj _ member _ member' escape, rest⟩
    | codePoint =>
      rw [codePointEscape_append] at same
      obtain ⟨_, same⟩ := List.cons.inj same
      exact absurd (List.cons.inj same).1 (ne_of_mem_shortEscapes _ member)
  | codePoint =>
    cases right with
    | plain _ notBackslash =>
      rw [codePointEscape_append] at same
      exact absurd (List.cons.inj same).1.symm notBackslash
    | short member =>
      rw [codePointEscape_append] at same
      obtain ⟨_, same⟩ := List.cons.inj same
      exact absurd (List.cons.inj same).1.symm (ne_of_mem_shortEscapes _ member)
    | codePoint => exact codePointEscape_append_inj same

/-- A quoted character does not begin with the quote that ends a text. -/
theorem quoteChar_append_ne (c : Char) (x y : List Char) : quoteChar c ++ x ≠ '"' :: y := by
  have quotes := quotes_quoteChar c
  generalize quoteChar c = cs at quotes
  cases quotes with
  | plain notQuote =>
    intro same
    exact notQuote (List.cons.inj same).1
  | short => simp
  | codePoint => simp [codePointEscape]

/-- A quoted text shows where it ends. -/
theorem flatMap_quoteChar_append_inj {cs ds x y : List Char}
    (same : cs.flatMap quoteChar ++ '"' :: x = ds.flatMap quoteChar ++ '"' :: y) :
    cs = ds ∧ x = y := by
  induction cs generalizing ds with
  | nil =>
    cases ds with
    | nil => exact ⟨rfl, (List.cons.inj same).2⟩
    | cons d ds =>
      rw [List.flatMap_cons, List.append_assoc] at same
      exact absurd same.symm (quoteChar_append_ne d _ _)
  | cons c cs ih =>
    rw [List.flatMap_cons, List.append_assoc] at same
    cases ds with
    | nil => exact absurd same (quoteChar_append_ne c _ _)
    | cons d ds =>
      rw [List.flatMap_cons, List.append_assoc] at same
      obtain ⟨rfl, others⟩ := quoteChar_append_inj same
      obtain ⟨rfl, rest⟩ := ih others
      exact ⟨rfl, rest⟩

/-- Texts with the same quoted form are the same. -/
theorem quote_injective : Function.Injective quote := by
  intro s t same
  have chars := congrArg String.toList same
  simp only [quote, String.toList_ofList, List.cons_append, List.cons.injEq, true_and] at chars
  exact String.toList_inj.mp (flatMap_quoteChar_append_inj chars).1

/-- A quoted text stays on one line. -/
theorem notMem_quote (s : String) : '\n' ∉ (quote s).toList := by
  have char (c : Char) : '\n' ∉ quoteChar c := by
    have quotes := quotes_quoteChar c
    generalize quoteChar c = cs at quotes
    cases quotes with
    | plain _ _ notNewline => simpa using notNewline.symm
    | short member =>
      have second : ∀ p ∈ shortEscapes, p.2 ≠ '\n' := by decide
      simpa using (second _ member).symm
    | codePoint =>
      have digits : '\n' ∉ Nat.toDigits 16 c.toNat := by
        intro member
        exact absurd (isAlphanum_of_mem_toDigits member) (by decide)
      simp [codePointEscape, digits]
  simp [quote, char]

end RecordQuery.Text
