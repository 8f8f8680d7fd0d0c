import RecordQuery.Literal.Decode
import RecordQuery.Token.Scan

/-!
# Writing literals

A constant as it is written in a query: an integer in decimal, a text between quotes with a backslash
before each quote and each backslash inside. Reading what is written gives the constant back
(`decodeInteger_written`, `decodeText_written`), and the quotes around a text are where it begins
and ends (`splitText_escaped`).
-/

namespace RecordQuery.Literal

/-- A character as it stands between quotes. -/
def escapeChar (c : Char) : List Char :=
  if c = '\'' ∨ c = '\\' then ['\\', c] else [c]

/-- A text as it stands between quotes. -/
def escape (cs : List Char) : List Char :=
  cs.flatMap escapeChar

/-- A constant as it is written in a query. -/
def written : Literal → String
  | integer n => toString n.toInt
  | text s => String.ofList ('\'' :: (escape s.toList ++ ['\'']))

theorem escape_cons (c : Char) (cs : List Char) : escape (c :: cs) = escapeChar c ++ escape cs :=
  List.flatMap_cons

theorem unescape_cons {c : Char} (plain : c ≠ '\\') (cs : List Char) :
    unescape (c :: cs) = c :: unescape cs := by
  rw [unescape]
  · rintro rfl
    exact absurd rfl plain
  · rintro d ds rfl
    exact absurd rfl plain

/-- A text has no other characters than those that its written form stands for. -/
theorem unescape_escape (cs : List Char) : unescape (escape cs) = cs := by
  induction cs with
  | nil => rfl
  | cons c cs ih =>
    rw [escape_cons]
    by_cases special : c = '\'' ∨ c = '\\'
    · rw [escapeChar, if_pos special]
      have itself : unescapeChar c = c := by
        rcases special with rfl | rfl <;> rfl
      rw [List.cons_append, List.singleton_append, unescape, itself, ih]
    · rw [escapeChar, if_neg special, List.singleton_append,
        unescape_cons (fun same => special (.inr same)), ih]

/-- A written text ends at its closing quote and not before. -/
theorem splitText_escaped (cs rest : List Char) :
    splitText (escape cs ++ '\'' :: rest) = some (escape cs ++ ['\''], rest) := by
  induction cs with
  | nil => rfl
  | cons c cs ih =>
    rw [escape_cons]
    by_cases special : c = '\'' ∨ c = '\\'
    · simp only [escapeChar, if_pos special, List.cons_append, List.nil_append, splitText, ih,
        Option.map_some]
    · simp only [escapeChar, if_neg special, List.cons_append, List.nil_append]
      rw [splitText, ih, Option.map_some]
      · exact fun same => special (.inl same)
      · exact fun d ds same _ => special (.inr same)

/-- The quotes around a text are taken off. -/
theorem decodeText_quoted (w : List Char) :
    decodeText (String.ofList ('\'' :: (w ++ ['\'']))) = String.ofList (unescape w) := by
  rw [decodeText, String.toList_ofList, stripOpening, stripClosing, List.getLast?_append,
    List.getLast?_singleton, Option.some_or, if_pos rfl, List.dropLast_concat]

theorem decodeText_written (s : String) : decodeText (written (.text s)) = s := by
  rw [written, decodeText_quoted, unescape_escape, String.ofList_toList]

/-- A number in decimal is a digit and more digits. -/
theorem exists_toDigits (n : Nat) :
    ∃ c cs, Nat.toDigits 10 n = c :: cs ∧ c.isDigit = true ∧ ∀ d ∈ cs, d.isDigit = true := by
  obtain ⟨c, cs, digits⟩ := List.exists_cons_of_ne_nil (Nat.toDigits_ne_nil (n := n) (b := 10))
  have all : ∀ d ∈ c :: cs, d.isDigit = true := by
    intro d member
    rw [← digits] at member
    exact Nat.isDigit_of_mem_toDigits (by decide) (by decide) member
  exact ⟨c, cs, digits, List.forall_mem_cons.mp all⟩

theorem decodeDigits_toDigits (n : Nat) : decodeDigits (Nat.toDigits 10 n) = some n := by
  obtain ⟨c, cs, digits, digit, others⟩ := exists_toDigits n
  have all : (c :: cs).all Char.isDigit = true :=
    List.all_eq_true.mpr (List.forall_mem_cons.mpr ⟨digit, others⟩)
  rw [decodeDigits, digits, if_pos ⟨List.cons_ne_nil c cs, all⟩, ← digits,
    ← Nat.ofDigitChars_eq_foldl, Nat.ofDigitChars_ten_toDigits]

/-- Digits without a sign before them. -/
theorem decodeWhole_of_isDigit {c : Char} (digit : c.isDigit = true) (cs : List Char) :
    decodeWhole (c :: cs) = (decodeDigits (c :: cs)).map fun n => (n : Int) := by
  unfold decodeWhole
  split
  · next same =>
    cases same
    cases digit
  · next same =>
    cases same
    cases digit
  · rfl

/-- A whole number in decimal begins with a digit, or with a sign and a digit. -/
theorem toList_toString_int (n : Int) :
    (toString n).toList =
      if 0 ≤ n then Nat.toDigits 10 n.toNat else '-' :: Nat.toDigits 10 (-n).toNat := by
  rw [Int.toString_eq_repr, Int.repr_eq_if]
  split
  · exact Nat.toList_repr
  · rw [String.toList_append, Nat.toList_repr]
    rfl

theorem decodeWhole_toString (n : Int) : decodeWhole (toString n).toList = some n := by
  rw [toList_toString_int]
  split
  · next natural =>
    obtain ⟨c, cs, digits, digit, _⟩ := exists_toDigits n.toNat
    rw [digits, decodeWhole_of_isDigit digit, ← digits, decodeDigits_toDigits]
    show some (n.toNat : Int) = some n
    rw [Int.toNat_of_nonneg natural]
  · next negative =>
    rw [decodeWhole, decodeDigits_toDigits]
    show some (-((-n).toNat : Int)) = some n
    rw [Option.some.injEq]
    omega

theorem fit_toInt (n : Int64) : fit n.toInt = some n := by
  rw [fit, if_pos ⟨n.minValue_le_toInt, n.toInt_le⟩, Int64.ofInt_toInt]

theorem decodeInteger_written (n : Int64) : decodeInteger (written (.integer n)) = some n := by
  rw [decodeInteger, written, decodeWhole_toString, Option.bind_some, fit_toInt]

end RecordQuery.Literal
