import Mathlib
import RecordQuery.Proofs.Token.LongestMatch

/-!
# Numerals

An integer in a query is a run of decimal digits, of any length and with any number of zeros in front,
after a minus sign or without one. It is read as one token and stands for the whole number that its digits
denote, if that is in the range of 64 bits: `decodeInteger_eq_some_iff`. So nothing is rounded or wrapped
around at either end of the range, and each 64-bit integer has a numeral: `Numeral.ofInteger`.
-/

namespace RecordQuery

/-- The texts `-?[0-9]+`. -/
structure Numeral where
  negative : Bool
  digits : List Char
  nonempty : digits ≠ []
  decimal : ∀ d ∈ digits, d.isDigit = true

namespace Numeral

/-- A numeral in characters. -/
def chars (m : Numeral) : List Char :=
  if m.negative then '-' :: m.digits else m.digits

/-- A numeral as it stands in a query. -/
def text (m : Numeral) : String :=
  String.ofList m.chars

/-- The natural number that some decimal digits denote, the last one of which is that of the units. -/
def magnitude (ds : List Char) : Nat :=
  Nat.ofDigits 10 (ds.reverse.map fun d => d.toNat - '0'.toNat)

/-- The whole number that a numeral denotes. -/
def value (m : Numeral) : Int :=
  if m.negative then -(magnitude m.digits : Int) else magnitude m.digits

/-- The number is in the range of 64-bit integers. -/
def Fits (m : Numeral) : Prop :=
  -2 ^ 63 ≤ m.value ∧ m.value ≤ 2 ^ 63 - 1

variable {m : Numeral}

/-- A numeral is a token of the language. -/
theorem forms (m : Numeral) : TokenKind.Forms .integer m.chars := by
  obtain ⟨negative, digits, nonempty, decimal⟩ := m
  obtain ⟨d, ds, rfl⟩ := List.exists_cons_of_ne_nil nonempty
  have digits : ∀ e ∈ d :: ds, IsDecimalDigit e := by
    intro e member
    exact (isDigit_iff e).mp (decimal e member)
  cases negative with
  | true => exact .negative digits
  | false => exact .integer digits

theorem not_isBlank_of_head? {c : Char} (head : m.chars.head? = some c) : Text.isBlank c = false := by
  obtain ⟨negative, digits, nonempty, decimal⟩ := m
  cases negative with
  | true =>
    cases head
    decide
  | false =>
    exact not_isBlank_of_isDigit (decimal c (List.mem_of_mem_head? head))

/-- A numeral ends where no digit follows. -/
theorem apart {rest : List Char} (m : Numeral) (ends : ∀ d ∈ rest.head?, d.isDigit = false) :
    Apart m.chars rest := by
  intro d head
  obtain ⟨negative, digits, nonempty, decimal⟩ := m
  cases negative with
  | true => exact ends d head
  | false =>
    obtain ⟨e, es, rfl⟩ := List.exists_cons_of_ne_nil nonempty
    exact (Lexeme.glues_digit (decimal e List.mem_cons_self) es d).trans (ends d head)

/-- A numeral that no digit follows is read as one token, which is all of it. -/
theorem next_chars (m : Numeral) {rest : List Char} (ends : ∀ d ∈ rest.head?, d.isDigit = false)
    (n : Nat) : (⟨m.chars ++ rest, n⟩ : Cursor).next =
      (⟨.integer, m.text, n⟩, ⟨rest, n + m.chars.length⟩) := by
  obtain ⟨c, tail, chars, alone⟩ := m.forms.alone
  have visible : Text.isBlank c = false := not_isBlank_of_head? (by rw [chars, List.head?_cons])
  have apart := m.apart ends
  rw [text, chars, List.cons_append, Cursor.next_cons visible]
  rw [chars] at apart
  rw [Lexeme.first_of_apart alone (by decide) apart]

theorem decodeDigits_eq {ds : List Char} (nonempty : ds ≠ []) (decimal : ∀ d ∈ ds, d.isDigit = true) :
    Literal.decodeDigits ds = some (magnitude ds) := by
  have digits : magnitude ds = ds.foldl (fun n d => 10 * n + (d.toNat - '0'.toNat)) 0 := by
    rw [magnitude, Nat.ofDigits_eq_foldr, List.foldr_map, List.foldr_reverse]
    exact List.foldl_ext _ _ _ fun n d _ => Nat.add_comm _ _
  rw [Literal.decodeDigits, if_pos ⟨nonempty, List.all_eq_true.mpr decimal⟩, digits]

theorem decodeWhole_eq (m : Numeral) : Literal.decodeWhole m.chars = some m.value := by
  obtain ⟨negative, digits, nonempty, decimal⟩ := m
  have number := decodeDigits_eq nonempty decimal
  cases negative with
  | true =>
    show Literal.decodeWhole ('-' :: digits) = _
    rw [Literal.decodeWhole, number]
    rfl
  | false =>
    obtain ⟨d, ds, rfl⟩ := List.exists_cons_of_ne_nil nonempty
    show Literal.decodeWhole (d :: ds) = _
    rw [Literal.decodeWhole_of_isDigit (decimal d List.mem_cons_self), number]
    rfl

end Numeral

namespace Literal

/-- A whole number is the 64-bit integer of the same value, and no other one. -/
theorem fit_eq_some_iff {v : Int} {n : Int64} : fit v = some n ↔ n.toInt = v := by
  constructor
  · intro fits
    unfold fit at fits
    split at fits
    · next range =>
      cases fits
      refine Int64.toInt_ofInt_of_le range.1 ?_
      exact Int.lt_add_one_of_le range.2
    · cases fits
  · rintro rfl
    exact fit_toInt n

theorem decodeInteger_eq (m : Numeral) : decodeInteger m.text = fit m.value := by
  rw [decodeInteger, Numeral.text, String.toList_ofList, m.decodeWhole_eq, Option.bind_some]

/-- A numeral stands for the integer that it denotes. -/
theorem decodeInteger_eq_some_iff {m : Numeral} {n : Int64} :
    decodeInteger m.text = some n ↔ n.toInt = m.value := by
  rw [decodeInteger_eq, fit_eq_some_iff]

/-- A numeral stands for no integer if and only if it denotes one that needs more than 64 bits. -/
theorem decodeInteger_eq_none_iff {m : Numeral} : decodeInteger m.text = none ↔ ¬ m.Fits := by
  have least : Int64.minValue.toInt = -2 ^ 63 := by decide
  have greatest : Int64.maxValue.toInt = 2 ^ 63 - 1 := by decide
  rw [decodeInteger_eq, fit, least, greatest, Numeral.Fits]
  exact ite_eq_right_iff.trans (by simp)

end Literal

/-- The numeral of a 64-bit integer, without zeros in front. -/
def Numeral.ofInteger (n : Int64) : Numeral where
  negative := n.toInt < 0
  digits := Nat.toDigits 10 n.toInt.natAbs
  nonempty := Nat.toDigits_ne_nil
  decimal _ member := Nat.isDigit_of_mem_toDigits (by decide) (by decide) member

theorem Numeral.text_ofInteger (n : Int64) : (ofInteger n).text = toString n.toInt := by
  rw [← String.toList_inj, text, String.toList_ofList, Literal.toList_toString_int, chars, ofInteger]
  by_cases natural : 0 ≤ n.toInt
  · have magnitude : n.toInt.natAbs = n.toInt.toNat := by omega
    simp [natural, magnitude]
  · have magnitude : n.toInt.natAbs = (-n.toInt).toNat := by omega
    simp [natural, magnitude, Int.not_le.mp natural]

end RecordQuery
