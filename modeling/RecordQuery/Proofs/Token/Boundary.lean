import RecordQuery.Token.Scan

/-!
# Where tokens end

A token ends before the first character that it cannot take. So a token is read again from its own
text if only the next character is not such a one (`Lexeme.first_of_apart`), and what follows a token
in a query never begins with such a one (`Lexeme.apart_first`).
-/

namespace RecordQuery

/-- Whether a token with a given text goes on with the character `d` if that comes next. -/
def glues : List Char → Char → Bool
  | [], _ => false
  | c :: cs, d =>
    if isNameStart c then isNamePart d
    else if c.isDigit || c == '-' then d.isDigit
    else if c = '<' then cs.isEmpty && (d == '=' || d == '>')
    else if c = '>' then cs.isEmpty && d == '='
    else false

/-- A token with the text `text` ends where the text `rest` begins. -/
def Apart (text rest : List Char) : Prop :=
  ∀ d ∈ rest.head?, glues text d = false

theorem apart_nil (text : List Char) : Apart text [] := by
  rintro d ⟨⟩

theorem apart_cons {text : List Char} {d : Char} (h : glues text d = false) (rest : List Char) :
    Apart text (d :: rest) := by
  rintro e ⟨⟩
  exact h

/-- Only the next character matters to where a token ends. -/
theorem Apart.append {text rest more : List Char} (apart : Apart text rest)
    (next : Apart text more) : Apart text (rest ++ more) := by
  cases rest with
  | nil => exact next
  | cons d rest => exact apart_cons (apart d rfl) (rest ++ more)

theorem toNat_of_isBlank {d : Char} (blank : Text.isBlank d = true) :
    d.toNat ≤ 0x20 ∨ 0x85 ≤ d.toNat := by
  simp only [Text.isBlank, Bool.or_eq_true, Bool.and_eq_true, decide_eq_true_eq, beq_iff_eq] at blank
  omega

theorem toNat_of_isDigit {d : Char} (digit : d.isDigit = true) :
    0x30 ≤ d.toNat ∧ d.toNat ≤ 0x39 := by
  obtain ⟨least, greatest⟩ := Bool.and_eq_true_iff.mp digit
  exact ⟨UInt32.le_iff_toNat_le.mp (of_decide_eq_true least),
    UInt32.le_iff_toNat_le.mp (of_decide_eq_true greatest)⟩

theorem toNat_of_isUpper {d : Char} (upper : d.isUpper = true) :
    0x41 ≤ d.toNat ∧ d.toNat ≤ 0x5A := by
  obtain ⟨least, greatest⟩ := of_decide_eq_true upper
  exact ⟨UInt32.le_iff_toNat_le.mp least, UInt32.le_iff_toNat_le.mp greatest⟩

theorem toNat_of_isLower {d : Char} (lower : d.isLower = true) :
    0x61 ≤ d.toNat ∧ d.toNat ≤ 0x7A := by
  obtain ⟨least, greatest⟩ := Bool.and_eq_true_iff.mp lower
  exact ⟨UInt32.le_iff_toNat_le.mp (of_decide_eq_true least),
    UInt32.le_iff_toNat_le.mp (of_decide_eq_true greatest)⟩

theorem toNat_of_isNameStart {d : Char} (start : isNameStart d = true) :
    d.toNat = 0x24 ∨ 0x41 ≤ d.toNat ∧ d.toNat ≤ 0x7A := by
  rw [isNameStart, Bool.or_eq_true, Bool.or_eq_true, beq_iff_eq, beq_iff_eq] at start
  rcases start with (letter | rfl) | rfl
  · rcases Bool.or_eq_true_iff.mp letter with upper | lower
    · have := toNat_of_isUpper upper
      omega
    · have := toNat_of_isLower lower
      omega
  · decide
  · decide

theorem toNat_of_isNamePart {d : Char} (part : isNamePart d = true) :
    0x24 ≤ d.toNat ∧ d.toNat ≤ 0x7A := by
  rw [isNamePart, Bool.or_eq_true] at part
  rcases part with start | digit
  · have := toNat_of_isNameStart start
    omega
  · have := toNat_of_isDigit digit
    omega

/-- A blank is none of the characters that tokens but texts are made of. -/
theorem not_isBlank_of_toNat {d : Char} (least : 0x20 < d.toNat) (greatest : d.toNat < 0x85) :
    Text.isBlank d = false := by
  cases blank : Text.isBlank d with
  | false => rfl
  | true =>
    have := toNat_of_isBlank blank
    omega

theorem not_isBlank_of_isNamePart {d : Char} (part : isNamePart d = true) :
    Text.isBlank d = false := by
  have := toNat_of_isNamePart part
  exact not_isBlank_of_toNat (by omega) (by omega)

theorem not_isBlank_of_isDigit {d : Char} (digit : d.isDigit = true) : Text.isBlank d = false := by
  have := toNat_of_isDigit digit
  exact not_isBlank_of_toNat (by omega) (by omega)

/-- A digit does not start a name. -/
theorem not_isNameStart_of_isDigit {d : Char} (digit : d.isDigit = true) :
    isNameStart d = false := by
  cases start : isNameStart d with
  | false => rfl
  | true =>
    have := toNat_of_isDigit digit
    have := toNat_of_isNameStart start
    omega

theorem not_isBlank_of_glues {text : List Char} {d : Char} (glued : glues text d = true) :
    Text.isBlank d = false := by
  unfold glues at glued
  split at glued
  · cases glued
  split at glued
  · exact not_isBlank_of_isNamePart glued
  split at glued
  · exact not_isBlank_of_isDigit glued
  split at glued
  · simp only [Bool.and_eq_true, Bool.or_eq_true, beq_iff_eq] at glued
    rcases glued.2 with rfl | rfl <;> decide
  split at glued
  · simp only [Bool.and_eq_true, beq_iff_eq] at glued
    rw [glued.2]
    decide
  · cases glued

/-- A blank ends every token. -/
theorem apart_of_isBlank (text : List Char) {d : Char} (blank : Text.isBlank d = true)
    (rest : List Char) : Apart text (d :: rest) := by
  refine apart_cons ?_ rest
  cases glued : glues text d with
  | false => rfl
  | true => rw [not_isBlank_of_glues glued] at blank; cases blank

theorem splitText_of_append {cs text rest : List Char} (closed : splitText cs = some (text, rest))
    (more : List Char) : splitText (text ++ more) = some (text, more) := by
  fun_induction splitText cs generalizing text rest with
  | case1 => cases closed
  | case2 cs =>
    cases closed
    rfl
  | case3 c cs ih =>
    simp only [Option.map_eq_some_iff, Prod.exists, Prod.mk.injEq] at closed
    obtain ⟨t, r, inner, rfl, rfl⟩ := closed
    simp only [List.cons_append, splitText, ih inner, Option.map_some]
  | case4 c cs notQuote notEscape ih =>
    simp only [Option.map_eq_some_iff, Prod.exists, Prod.mk.injEq] at closed
    obtain ⟨t, r, inner, rfl, rfl⟩ := closed
    have plain : ∀ d ds, c = '\\' → t ++ more = d :: ds → False := by
      rintro d ds rfl -
      cases cs with
      | nil => cases inner
      | cons d cs => exact notEscape d cs rfl rfl
    rw [List.cons_append, splitText]
    · rw [ih inner, Option.map_some]
    · exact notQuote
    · exact plain

namespace Lexeme

/-- The first token of a text begins with its first character. -/
theorem exists_first (c : Char) (cs : List Char) :
    ∃ k tail rest, first c cs = ⟨k, c :: tail, rest⟩ ∧ cs = tail ++ rest := by
  have whole := text_append_rest_first c cs
  have some := text_first_ne_nil c cs
  cases taken : first c cs with
  | mk k text rest =>
    rw [taken] at whole some
    cases text with
    | nil => exact absurd rfl some
    | cons d tail =>
      rw [List.cons_append, List.cons.injEq] at whole
      exact ⟨k, tail, rest, by rw [whole.1], whole.2.symm⟩

/-- A run of characters of one class, and a text that does not begin with one. -/
theorem span_of_apart {p : Char → Bool} {run rest : List Char} (all : ∀ d ∈ run, p d = true)
    (ends : ∀ d ∈ rest.head?, p d = false) :
    (run ++ rest).takeWhile p = run ∧ (run ++ rest).dropWhile p = rest := by
  rw [List.takeWhile_append_of_pos all, List.dropWhile_append_of_pos all]
  cases rest with
  | nil => simp
  | cons d rest =>
    have other : ¬ p d = true := by
      rw [ends d rfl]
      exact Bool.false_ne_true
    rw [List.takeWhile_cons_of_neg other, List.dropWhile_cons_of_neg other, List.append_nil]
    exact ⟨rfl, rfl⟩

theorem head?_dropWhile_ends (p : Char → Bool) (cs : List Char) :
    ∀ d ∈ (cs.dropWhile p).head?, p d = false := by
  intro d head
  have := List.head?_dropWhile_not p cs
  rw [head] at this
  simpa using this

variable {c : Char} {cs tail r rest : List Char} {k : TokenKind}

theorem word_of_apart (taken : word c cs = ⟨k, c :: tail, r⟩)
    (ends : ∀ d ∈ rest.head?, isNamePart d = false) :
    word c (tail ++ rest) = ⟨k, c :: tail, rest⟩ := by
  simp only [word, mk.injEq, List.cons.injEq, true_and] at taken
  obtain ⟨rfl, rfl, -⟩ := taken
  obtain ⟨run, after⟩ := span_of_apart (List.all_eq_true.mp List.all_takeWhile) ends
  rw [word, run, after]

theorem numeral_of_apart (taken : numeral c cs = ⟨k, c :: tail, r⟩)
    (ends : ∀ d ∈ rest.head?, d.isDigit = false) :
    numeral c (tail ++ rest) = ⟨k, c :: tail, rest⟩ := by
  simp only [numeral, mk.injEq, List.cons.injEq, true_and] at taken
  obtain ⟨rfl, rfl, -⟩ := taken
  obtain ⟨run, after⟩ := span_of_apart (List.all_eq_true.mp List.all_takeWhile) ends
  rw [numeral, run, after]

theorem quoted_of_closed (taken : quoted cs = ⟨k, '\'' :: tail, r⟩) (closed : k ≠ .unclosedText)
    (rest : List Char) : quoted (tail ++ rest) = ⟨k, '\'' :: tail, rest⟩ := by
  unfold quoted at taken
  split at taken
  · next text after split =>
    simp only [mk.injEq, List.cons.injEq, true_and] at taken
    obtain ⟨rfl, rfl, -⟩ := taken
    rw [quoted, splitText_of_append split rest]
  · cases taken
    exact absurd rfl closed

theorem mark_less (ends : ∀ d ∈ rest.head?, d ≠ '=' ∧ d ≠ '>') :
    mark '<' rest = ⟨.relation .less, ['<'], rest⟩ := by
  cases rest with
  | nil => rfl
  | cons d rest =>
    obtain ⟨notEqual, notGreater⟩ := ends d rfl
    unfold mark
    simp [notEqual, notGreater]

theorem mark_greater (ends : ∀ d ∈ rest.head?, d ≠ '=') :
    mark '>' rest = ⟨.relation .greater, ['>'], rest⟩ := by
  cases rest with
  | nil => rfl
  | cons d rest =>
    unfold mark
    simp [ends d rfl]

/-- What comes after a "<": the rest of a longer relation, or something else. -/
theorem less_cases (cs : List Char) : (∃ ds, cs = '=' :: ds) ∨ (∃ ds, cs = '>' :: ds) ∨
    ∀ d ∈ cs.head?, d ≠ '=' ∧ d ≠ '>' := by
  cases cs with
  | nil =>
    refine .inr (.inr ?_)
    rintro d ⟨⟩
  | cons e ds =>
    by_cases equal : e = '='
    · exact .inl ⟨ds, by rw [equal]⟩
    by_cases greater : e = '>'
    · exact .inr (.inl ⟨ds, by rw [greater]⟩)
    · refine .inr (.inr ?_)
      rintro d ⟨⟩
      exact ⟨equal, greater⟩

/-- What comes after a ">": the rest of a longer relation, or something else. -/
theorem greater_cases (cs : List Char) :
    (∃ ds, cs = '=' :: ds) ∨ ∀ d ∈ cs.head?, d ≠ '=' := by
  rcases less_cases cs with equal | ⟨ds, rfl⟩ | other
  · exact .inl equal
  · refine .inr ?_
    rintro d ⟨⟩
    decide
  · exact .inr fun d head => (other d head).1

/-- A mark is read again from its own text if that is not the beginning of a longer mark. -/
theorem mark_of_apart (taken : mark c cs = ⟨k, c :: tail, r⟩)
    (less : c = '<' → tail = [] → ∀ d ∈ rest.head?, d ≠ '=' ∧ d ≠ '>')
    (greater : c = '>' → tail = [] → ∀ d ∈ rest.head?, d ≠ '=') :
    mark c (tail ++ rest) = ⟨k, c :: tail, rest⟩ := by
  by_cases isLess : c = '<'
  · subst isLess
    rcases less_cases cs with ⟨ds, rfl⟩ | ⟨ds, rfl⟩ | other
    · cases taken
      rfl
    · cases taken
      rfl
    · rw [mark_less other] at taken
      cases taken
      exact mark_less (less rfl rfl)
  by_cases isGreater : c = '>'
  · subst isGreater
    rcases greater_cases cs with ⟨ds, rfl⟩ | other
    · cases taken
      rfl
    · rw [mark_greater other] at taken
      cases taken
      exact mark_greater (greater rfl rfl)
  · have alone : ∀ cs, mark c cs = ⟨(mark c []).kind, [c], cs⟩ := by
      intro cs
      simp only [mark, isLess, isGreater, if_false]
      repeat' split
      all_goals rfl
    rw [alone] at taken
    cases taken
    exact alone rest

/-- A mark is not followed by a character that would make a longer mark of it. -/
theorem mark_ends (taken : mark c cs = ⟨k, c :: tail, r⟩) :
    (c = '<' → tail = [] → ∀ d ∈ r.head?, d ≠ '=' ∧ d ≠ '>') ∧
      (c = '>' → tail = [] → ∀ d ∈ r.head?, d ≠ '=') := by
  constructor
  · rintro rfl rfl
    rcases less_cases cs with ⟨ds, rfl⟩ | ⟨ds, rfl⟩ | other
    · cases taken
    · cases taken
    · rw [mark_less other] at taken
      cases taken
      exact other
  · rintro rfl rfl
    rcases greater_cases cs with ⟨ds, rfl⟩ | other
    · cases taken
    · rw [mark_greater other] at taken
      cases taken
      exact other

theorem first_name (named : isNameStart c = true) (cs : List Char) : first c cs = word c cs := by
  rw [first, if_pos named]

/-- A run of name characters is taken as a whole. -/
theorem first_run (named : isNameStart c = true) (parts : ∀ d ∈ tail, isNamePart d = true)
    (ends : ∀ d ∈ rest.head?, isNamePart d = false) :
    first c (tail ++ rest) = ⟨wordKind (c :: tail), c :: tail, rest⟩ := by
  obtain ⟨run, after⟩ := span_of_apart parts ends
  rw [first_name named, word, run, after]

theorem first_digit (digit : c.isDigit = true) (cs : List Char) : first c cs = numeral c cs := by
  simp only [first, not_isNameStart_of_isDigit digit, digit, Bool.true_or, Bool.false_eq_true,
    if_true, if_false]

/-- A sign with a digit after it starts a numeral. -/
theorem first_sign_of_digit (digit : cs.head?.any Char.isDigit = true) :
    first '-' cs = numeral '-' cs := by
  have unnamed : isNameStart '-' = false := by decide
  simp only [first, unnamed, digit, beq_self_eq_true, Bool.and_true, Bool.or_true, if_true,
    Bool.false_eq_true, if_false]

/-- A sign without a digit after it is no token of the language. -/
theorem first_sign (noDigit : cs.head?.any Char.isDigit = false) :
    first '-' cs = ⟨.illegal, ['-'], cs⟩ := by
  have unnamed : isNameStart '-' = false := by decide
  have undigit : Char.isDigit '-' = false := by decide
  simp only [first, unnamed, undigit, noDigit, Bool.and_false, Bool.or_false, Bool.false_eq_true,
    if_false]
  rfl

/-- The characters that start a mark or no token of the language. -/
structure IsMark (c : Char) : Prop where
  unnamed : isNameStart c = false
  undigit : c.isDigit = false
  unsigned : c ≠ '-'
  unquoted : c ≠ '\''

theorem first_mark (h : IsMark c) (cs : List Char) : first c cs = mark c cs := by
  simp only [first, h.unnamed, h.undigit, beq_eq_false_iff_ne.mpr h.unsigned, Bool.false_and,
    Bool.or_self, Bool.false_eq_true, if_false, h.unquoted]

/-- What a character can start. -/
theorem start_cases (c : Char) :
    isNameStart c = true ∨ c.isDigit = true ∨ c = '-' ∨ c = '\'' ∨ IsMark c := by
  by_cases named : isNameStart c = true
  · exact .inl named
  by_cases digit : c.isDigit = true
  · exact .inr (.inl digit)
  by_cases sign : c = '-'
  · exact .inr (.inr (.inl sign))
  by_cases quote : c = '\''
  · exact .inr (.inr (.inr (.inl quote)))
  · exact .inr (.inr (.inr (.inr
      ⟨Bool.eq_false_iff.mpr named, Bool.eq_false_iff.mpr digit, sign, quote⟩)))

theorem glues_name (named : isNameStart c = true) (tail : List Char) (d : Char) :
    glues (c :: tail) d = isNamePart d := by
  rw [glues, if_pos named]

theorem glues_digit (digit : c.isDigit = true) (tail : List Char) (d : Char) :
    glues (c :: tail) d = d.isDigit := by
  simp only [glues, not_isNameStart_of_isDigit digit, digit, Bool.true_or, Bool.false_eq_true,
    if_true, if_false]

/-- A mark goes on only where it is the beginning of a longer one. -/
theorem glues_mark (h : IsMark c) (tail : List Char) (d : Char) :
    glues (c :: tail) d = false ↔ (c = '<' → tail = [] → d ≠ '=' ∧ d ≠ '>') ∧
      (c = '>' → tail = [] → d ≠ '=') := by
  simp only [glues, h.unnamed, h.undigit, beq_eq_false_iff_ne.mpr h.unsigned, Bool.or_self,
    Bool.false_eq_true, if_false]
  by_cases less : c = '<'
  · subst less
    cases tail <;> simp
  by_cases greater : c = '>'
  · subst greater
    cases tail <;> simp
  · simp [less, greater]

/-- The digits of a numeral begin with the digit after its sign. -/
theorem head?_of_numeral (taken : numeral c cs = ⟨k, c :: tail, r⟩)
    (digit : cs.head?.any Char.isDigit = true) (rest : List Char) :
    (tail ++ rest).head?.any Char.isDigit = true := by
  simp only [numeral, mk.injEq, List.cons.injEq, true_and] at taken
  obtain ⟨-, rfl, -⟩ := taken
  cases cs with
  | nil => cases digit
  | cons d cs =>
    have digit : d.isDigit = true := digit
    simp only [List.takeWhile_cons_of_pos digit, List.cons_append, List.head?_cons, Option.any_some,
      digit]

/-- A token is read again from its own text, whatever comes after it that it does not go on with. -/
theorem first_of_apart (taken : first c cs = ⟨k, c :: tail, r⟩) (closed : k ≠ .unclosedText)
    (apart : Apart (c :: tail) rest) : first c (tail ++ rest) = ⟨k, c :: tail, rest⟩ := by
  rcases start_cases c with named | digit | rfl | rfl | isMark
  · rw [first_name named] at taken ⊢
    exact word_of_apart taken fun d head => (glues_name named tail d).symm.trans (apart d head)
  · rw [first_digit digit] at taken ⊢
    exact numeral_of_apart taken fun d head => (glues_digit digit tail d).symm.trans (apart d head)
  · have ends : ∀ d ∈ rest.head?, d.isDigit = false := apart
    cases after : cs.head?.any Char.isDigit with
    | true =>
      rw [first_sign_of_digit after] at taken
      rw [first_sign_of_digit (head?_of_numeral taken after rest)]
      exact numeral_of_apart taken ends
    | false =>
      rw [first_sign after] at taken
      cases taken
      refine first_sign ?_
      cases head : rest.head? with
      | none => rw [List.nil_append, head, Option.any_none]
      | some d => rw [List.nil_append, head, Option.any_some, ends d head]
  · exact quoted_of_closed taken closed rest
  · rw [first_mark isMark] at taken ⊢
    refine mark_of_apart taken (fun less short d head => ?_) (fun greater short d head => ?_)
    · exact ((glues_mark isMark tail d).mp (apart d head)).1 less short
    · exact ((glues_mark isMark tail d).mp (apart d head)).2 greater short

/-- A token ends where what follows it begins. -/
theorem apart_first (taken : first c cs = ⟨k, c :: tail, r⟩) : Apart (c :: tail) r := by
  intro d head
  rcases start_cases c with named | digit | rfl | rfl | isMark
  · simp only [first_name named, word, mk.injEq] at taken
    obtain ⟨-, -, rfl⟩ := taken
    rw [glues_name named]
    exact head?_dropWhile_ends isNamePart cs d head
  · simp only [first_digit digit, numeral, mk.injEq] at taken
    obtain ⟨-, -, rfl⟩ := taken
    rw [glues_digit digit]
    exact head?_dropWhile_ends Char.isDigit cs d head
  · show d.isDigit = false
    cases after : cs.head?.any Char.isDigit with
    | true =>
      simp only [first_sign_of_digit after, numeral, mk.injEq] at taken
      obtain ⟨-, -, rfl⟩ := taken
      exact head?_dropWhile_ends Char.isDigit cs d head
    | false =>
      rw [first_sign after] at taken
      cases taken
      rwa [head] at after
  · rfl
  · rw [first_mark isMark] at taken
    obtain ⟨less, greater⟩ := mark_ends taken
    exact (glues_mark isMark tail d).mpr
      ⟨fun isLess short => less isLess short d head,
        fun isGreater short => greater isGreater short d head⟩

/-- No token with a character is the end of a query, and an unclosed text takes the rest of it. -/
theorem kind_first (c : Char) (cs : List Char) : (first c cs).kind ≠ .finish ∧
    ((first c cs).kind = .unclosedText → (first c cs).rest = []) := by
  unfold first
  split
  · simp only [word, wordKind]
    split <;> simp
  split
  · simp [numeral]
  split
  · unfold quoted
    split <;> simp
  · unfold mark
    repeat' split
    all_goals simp

end Lexeme

end RecordQuery
