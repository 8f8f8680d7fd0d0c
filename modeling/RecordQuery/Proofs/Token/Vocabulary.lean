import RecordQuery.Proofs.Literal.Written
import RecordQuery.Proofs.Token.Word
import RecordQuery.Reader

/-!
# The words of the language

Each word of a query that compiles: punctuation, keywords, relations, names and constants. Each is
read as one token if it stands alone.
-/

namespace RecordQuery

theorem Keyword.mem_all (k : Keyword) : k ∈ Keyword.all := by
  cases k <;> decide

/-- A text that is a name: it has the letters of one and is no keyword in any letter case. -/
structure IsName (s : String) : Prop where
  shape : ∃ c cs, s.toList = c :: cs ∧ isNameStart c = true ∧ ∀ d ∈ cs, isNamePart d = true
  noKeyword : ∀ k : Keyword, s.toList.map Char.toLower ≠ k.spelling.toList

instance (s : String) : Decidable (IsName s) :=
  decidable_of_iff
    (s.toList.head?.any isNameStart = true ∧ s.toList.tail.all isNamePart = true ∧
      ∀ k ∈ Keyword.all, s.toList.map Char.toLower ≠ k.spelling.toList) <| by
    constructor
    · rintro ⟨start, parts, noKeyword⟩
      refine ⟨?_, fun k => noKeyword k k.mem_all⟩
      cases shape : s.toList with
      | nil =>
        rw [shape] at start
        cases start
      | cons c cs =>
        rw [shape] at start parts
        exact ⟨c, cs, rfl, start, List.all_eq_true.mp parts⟩
    · rintro ⟨⟨c, cs, shape, start, parts⟩, noKeyword⟩
      rw [shape]
      refine ⟨start, List.all_eq_true.mpr parts, fun k _ => ?_⟩
      rw [← shape]
      exact noKeyword k

/-- A run of name characters is the keyword that it spells in some letter case. -/
theorem wordKind_eq_keyword_iff {run : List Char} {k : Keyword} :
    wordKind run = .keyword k ↔ run.map Char.toLower = k.spelling.toList := by
  unfold wordKind
  constructor
  · intro kind
    split at kind
    · next found =>
      cases kind
      have spelled := List.find?_some found
      rw [beq_iff_eq] at spelled
      exact spelled.symm
    · cases kind
  · intro same
    split
    · next l found =>
      have spelled := List.find?_some found
      rw [beq_iff_eq, same] at spelled
      have other : l = k := by
        revert spelled
        cases l <;> cases k <;> decide
      rw [other]
    · next none =>
      have absent := List.find?_eq_none.mp none k k.mem_all
      rw [beq_iff_eq] at absent
      exact absurd same.symm absent

/-- A run of name characters that spells no keyword is a name. -/
theorem wordKind_eq_name_iff {run : List Char} :
    wordKind run = .name ↔ ∀ k : Keyword, run.map Char.toLower ≠ k.spelling.toList := by
  constructor
  · intro kind k same
    rw [wordKind_eq_keyword_iff.mpr same] at kind
    cases kind
  · intro other
    unfold wordKind
    split
    · next k found =>
      have spelled := List.find?_some found
      rw [beq_iff_eq] at spelled
      exact absurd spelled.symm (other k)
    · rfl

/-- Only a name character starts a name or a keyword. -/
theorem Lexeme.isNameStart_of_kind {c : Char} {cs : List Char}
    (named : (first c cs).kind = .name ∨ ∃ k, (first c cs).kind = .keyword k) :
    isNameStart c = true := by
  unfold first at named
  split at named
  · assumption
  split at named
  · rcases named with named | ⟨_, named⟩ <;> cases named
  split at named
  · unfold quoted at named
    split at named <;> rcases named with named | ⟨_, named⟩ <;> cases named
  · unfold mark at named
    repeat' split at named
    all_goals rcases named with named | ⟨_, named⟩ <;> cases named

/-- A text that is an integer: digits, after a minus sign or without one. -/
def IsNumeral (s : String) : Prop :=
  ∃ c cs, (s.toList = c :: cs ∨ s.toList = '-' :: c :: cs) ∧ ∀ d ∈ c :: cs, d.isDigit = true

/-- A text that is an integer stands for a whole number. -/
theorem IsNumeral.exists_value {s : String} (numeral : IsNumeral s) :
    ∃ n, Literal.decodeWhole s.toList = some n := by
  obtain ⟨c, cs, text, digits⟩ := numeral
  have number : ∃ n, Literal.decodeDigits (c :: cs) = some n :=
    ⟨_, if_pos ⟨List.cons_ne_nil c cs, List.all_eq_true.mpr digits⟩⟩
  obtain ⟨n, value⟩ := number
  rcases text with text | text
  · rw [text, Literal.decodeWhole_of_isDigit (digits c List.mem_cons_self), value]
    exact ⟨_, rfl⟩
  · rw [text, Literal.decodeWhole, value]
    exact ⟨_, rfl⟩

/-- Only a digit, or a minus sign and a digit after it, start an integer. -/
theorem Lexeme.first_of_integer {c : Char} {cs : List Char} (integer : (first c cs).kind = .integer) :
    first c cs = numeral c cs ∧ (c.isDigit = true ∨ c = '-' ∧ cs.head?.any Char.isDigit = true) := by
  rcases start_cases c with named | digit | rfl | rfl | isMark
  · rw [first_name named, word, wordKind] at integer
    split at integer <;> cases integer
  · exact ⟨first_digit digit cs, .inl digit⟩
  · cases after : cs.head?.any Char.isDigit with
    | true => exact ⟨first_sign_of_digit after, .inr ⟨rfl, rfl⟩⟩
    | false =>
      rw [first_sign after] at integer
      cases integer
  · have quote : first '\'' cs = quoted cs := rfl
    rw [quote, quoted] at integer
    split at integer <;> cases integer
  · rw [first_mark isMark] at integer
    unfold mark at integer
    repeat' split at integer
    all_goals cases integer

namespace Word

def openParen : Word := ⟨.openParen, "("⟩

def closeParen : Word := ⟨.closeParen, ")"⟩

def comma : Word := ⟨.comma, ","⟩

def keyword (k : Keyword) : Word := ⟨.keyword k, k.spelling⟩

def relation (r : Relation) : Word := ⟨.relation r, r.symbol⟩

def name (s : String) : Word := ⟨.name, s⟩

/-- A constant, as it is written. -/
def literal : Literal → Word
  | .integer n => ⟨.integer, (Literal.integer n).written⟩
  | .text s => ⟨.text, (Literal.text s).written⟩

theorem isLexeme_openParen : openParen.IsLexeme :=
  ⟨by decide, '(', [], rfl, by decide, rfl⟩

theorem isLexeme_closeParen : closeParen.IsLexeme :=
  ⟨by decide, ')', [], rfl, by decide, rfl⟩

theorem isLexeme_comma : comma.IsLexeme :=
  ⟨by decide, ',', [], rfl, by decide, rfl⟩

theorem isLexeme_relation (r : Relation) : (relation r).IsLexeme := by
  refine ⟨by simp [relation], ?_⟩
  cases r <;> exact ⟨_, _, rfl, by decide, rfl⟩

theorem isLexeme_keyword (k : Keyword) : (keyword k).IsLexeme := by
  refine ⟨by simp [keyword], ?_⟩
  cases k <;> exact ⟨_, _, rfl, by decide, rfl⟩

/-- A run of name characters is a token by itself. -/
theorem isWhole_of_parts {w : Word} {c : Char} {cs : List Char} (text : w.text.toList = c :: cs)
    (start : isNameStart c = true) (parts : ∀ d ∈ cs, isNamePart d = true)
    (kind : wordKind (c :: cs) = w.kind) : w.IsWhole := by
  have part : isNamePart c = true := by rw [isNamePart, start, Bool.true_or]
  have ends : ∀ d ∈ ([] : List Char).head?, isNamePart d = false := by simp
  have taken := Lexeme.first_run start parts ends
  rw [List.append_nil, kind] at taken
  exact ⟨c, cs, text, not_isBlank_of_isNamePart part, taken⟩

/-- A name or a keyword is a run of name characters. -/
theorem IsWhole.exists_parts {w : Word} (whole : w.IsWhole)
    (named : w.kind = .name ∨ ∃ k, w.kind = .keyword k) :
    ∃ c cs, w.text.toList = c :: cs ∧ isNameStart c = true ∧ (∀ d ∈ cs, isNamePart d = true) ∧
      wordKind (c :: cs) = w.kind := by
  obtain ⟨c, cs, text, _, taken⟩ := whole
  have read : (Lexeme.first c cs).kind = w.kind := congrArg Lexeme.kind taken
  rw [← read] at named
  have start := Lexeme.isNameStart_of_kind named
  rw [Lexeme.first_name start, Lexeme.word, Lexeme.mk.injEq, List.cons.injEq] at taken
  obtain ⟨kind, ⟨_, run⟩, _⟩ := taken
  have parts := List.all_eq_true.mp (List.all_takeWhile (p := isNamePart) (l := cs))
  rw [run] at kind parts
  exact ⟨c, cs, text, start, parts, kind⟩

theorem isLexeme_name {s : String} (h : IsName s) : (name s).IsLexeme := by
  obtain ⟨⟨c, cs, shape, start, parts⟩, noKeyword⟩ := h
  have kind : wordKind (c :: cs) = .name := by
    rw [← shape]
    exact wordKind_eq_name_iff.mpr noKeyword
  exact ⟨by simp [name], isWhole_of_parts shape start parts kind⟩

/-- What is read as a name is one. -/
theorem isName_of_isWhole {w : Word} (whole : w.IsWhole) (named : w.kind = .name) : IsName w.text := by
  obtain ⟨c, cs, shape, start, parts, kind⟩ := whole.exists_parts (.inl named)
  rw [named, ← shape] at kind
  exact ⟨⟨c, cs, shape, start, parts⟩, wordKind_eq_name_iff.mp kind⟩

/-- What is read as an integer is one. -/
theorem isNumeral_of_isWhole {w : Word} (whole : w.IsWhole) (integer : w.kind = .integer) :
    IsNumeral w.text := by
  obtain ⟨c, cs, text, _, taken⟩ := whole
  have kind : (Lexeme.first c cs).kind = .integer := by rw [taken, integer]
  obtain ⟨same, start⟩ := Lexeme.first_of_integer kind
  rw [same, Lexeme.numeral, Lexeme.mk.injEq, List.cons.injEq] at taken
  have digits := List.all_eq_true.mp (List.all_takeWhile (p := Char.isDigit) (l := cs))
  rw [taken.2.1.2] at digits
  rcases start with digit | ⟨rfl, after⟩
  · exact ⟨c, cs, .inl text, List.forall_mem_cons.mpr ⟨digit, digits⟩⟩
  · cases cs with
    | nil => cases after
    | cons d ds => exact ⟨d, ds, .inr text, digits⟩

/-- A run of digits is a numeral. -/
theorem numeral_of_isDigit (c : Char) {cs : List Char} (digits : ∀ d ∈ cs, d.isDigit = true) :
    Lexeme.numeral c cs = ⟨.integer, c :: cs, []⟩ := by
  have ends : ∀ d ∈ ([] : List Char).head?, d.isDigit = false := by simp
  obtain ⟨run, after⟩ := Lexeme.span_of_apart digits ends
  rw [List.append_nil] at run after
  rw [Lexeme.numeral, run, after]

theorem isLexeme_literal (l : Literal) : (literal l).IsLexeme := by
  cases l with
  | text s =>
    refine ⟨by simp [literal], '\'', Literal.escape s.toList ++ ['\''], String.toList_ofList, by decide, ?_⟩
    show Lexeme.quoted _ = _
    rw [Lexeme.quoted, Literal.splitText_escaped]
    rfl
  | integer n =>
    refine ⟨by simp [literal], ?_⟩
    show ∃ c tail, (toString n.toInt).toList = c :: tail ∧ Text.isBlank c = false ∧
      Lexeme.first c tail = ⟨.integer, c :: tail, []⟩
    rw [Literal.toList_toString_int]
    split
    · obtain ⟨c, cs, digits, digit, others⟩ := Literal.exists_toDigits n.toInt.toNat
      refine ⟨c, cs, digits, not_isBlank_of_isDigit digit, ?_⟩
      rw [Lexeme.first_digit digit, numeral_of_isDigit c others]
    · obtain ⟨c, cs, digits, digit, others⟩ := Literal.exists_toDigits (-n.toInt).toNat
      rw [digits]
      refine ⟨'-', c :: cs, rfl, by decide, ?_⟩
      have starts : (c :: cs).head?.any Char.isDigit = true := digit
      rw [Lexeme.first_sign_of_digit starts]
      exact numeral_of_isDigit '-' (List.forall_mem_cons.mpr ⟨digit, others⟩)

/-- What stands for a constant is read as the constant. -/
theorem literal_of_word {t : Token} {l : Literal} (word : t.word = literal l) : t.literal = .ok l := by
  cases l with
  | integer n =>
    obtain ⟨kind, text⟩ := Word.mk.inj word
    simp only [Token.literal, kind, text, Literal.decodeInteger_written]
  | text s =>
    obtain ⟨kind, text⟩ := Word.mk.inj word
    simp only [Token.literal, kind, text, Literal.decodeText_written]

end Word

end RecordQuery
