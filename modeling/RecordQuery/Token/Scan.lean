import RecordQuery.Text.Blank
import RecordQuery.Token

/-!
# Scanning

A query is cut into tokens from left to right. At each place the blanks are skipped and the longest
token is taken; a character that starts no token is a token by itself, so scanning never fails. Each
token but the last takes at least one character (`Lexeme.rest_length_first`), so it ends.
-/

namespace RecordQuery

/-- A character that can start a name. -/
def isNameStart (c : Char) : Bool :=
  c.isAlpha || c == '_' || c == '$'

/-- A character that can stand inside a name. -/
def isNamePart (c : Char) : Bool :=
  isNameStart c || c.isDigit

/-- The kind of a whole run of name characters: a keyword in any letter case, else a name. -/
def wordKind (run : List Char) : TokenKind :=
  match Keyword.all.find? fun k => k.spelling.toList == run.map Char.toLower with
  | some k => .keyword k
  | none => .name

/-- A text literal after its opening quote: the characters through the closing quote, and what
    follows. A backslash takes the next character with it. -/
def splitText : List Char → Option (List Char × List Char)
  | [] => none
  | '\'' :: cs => some (['\''], cs)
  | '\\' :: c :: cs => (splitText cs).map fun (text, rest) => ('\\' :: c :: text, rest)
  | c :: cs => (splitText cs).map fun (text, rest) => (c :: text, rest)

/-- The first token of a text, and the text after it. -/
structure Lexeme where
  kind : TokenKind
  text : List Char
  rest : List Char

namespace Lexeme

/-- A name or a keyword that starts with `c`. -/
def word (c : Char) (cs : List Char) : Lexeme :=
  let run := c :: cs.takeWhile isNamePart
  ⟨wordKind run, run, cs.dropWhile isNamePart⟩

/-- An integer literal that starts with `c`, a digit or a sign. -/
def numeral (c : Char) (cs : List Char) : Lexeme :=
  ⟨.integer, c :: cs.takeWhile Char.isDigit, cs.dropWhile Char.isDigit⟩

/-- A text literal, after its opening quote. -/
def quoted (cs : List Char) : Lexeme :=
  match splitText cs with
  | some (text, rest) => ⟨.text, '\'' :: text, rest⟩
  | none => ⟨.unclosedText, '\'' :: cs, []⟩

/-- Punctuation, a relation or an illegal character. -/
def mark (c : Char) (cs : List Char) : Lexeme :=
  if c = '(' then ⟨.openParen, [c], cs⟩
  else if c = ')' then ⟨.closeParen, [c], cs⟩
  else if c = ',' then ⟨.comma, [c], cs⟩
  else if c = '=' then ⟨.relation .equal, [c], cs⟩
  else if c = '<' then
    match cs with
    | '=' :: cs => ⟨.relation .atMost, [c, '='], cs⟩
    | '>' :: cs => ⟨.relation .unequal, [c, '>'], cs⟩
    | cs => ⟨.relation .less, [c], cs⟩
  else if c = '>' then
    match cs with
    | '=' :: cs => ⟨.relation .atLeast, [c, '='], cs⟩
    | cs => ⟨.relation .greater, [c], cs⟩
  else ⟨.illegal, [c], cs⟩

/-- The first token of a text that starts with `c`, which is not a blank. -/
def first (c : Char) (cs : List Char) : Lexeme :=
  if isNameStart c then word c cs
  else if c.isDigit || (c == '-' && (cs.head?.any Char.isDigit)) then numeral c cs
  else if c = '\'' then quoted cs
  else mark c cs

end Lexeme

theorem splitText_append {cs text rest : List Char} (h : splitText cs = some (text, rest)) :
    text ++ rest = cs := by
  fun_induction splitText cs generalizing text rest with
  | case1 => simp at h
  | case2 cs =>
    simp only [Option.some.injEq, Prod.mk.injEq] at h
    simp [← h.1, ← h.2]
  | case3 c cs ih =>
    simp only [Option.map_eq_some_iff, Prod.exists, Prod.mk.injEq] at h
    obtain ⟨t, r, ht, rfl, rfl⟩ := h
    simp [ih ht]
  | case4 c cs _ _ ih =>
    simp only [Option.map_eq_some_iff, Prod.exists, Prod.mk.injEq] at h
    obtain ⟨t, r, ht, rfl, rfl⟩ := h
    simp [ih ht]

namespace Lexeme

/-- The first token and the text after it make up the text. -/
theorem text_append_rest_first (c : Char) (cs : List Char) :
    (first c cs).text ++ (first c cs).rest = c :: cs := by
  unfold first
  split
  · simp [word]
  split
  · simp [numeral]
  split
  · rename_i h
    subst h
    unfold quoted
    split
    · rename_i h
      simpa using splitText_append h
    · simp
  · unfold mark
    repeat' split
    all_goals simp

theorem text_first_ne_nil (c : Char) (cs : List Char) : (first c cs).text ≠ [] := by
  unfold first
  split
  · simp [word]
  split
  · simp [numeral]
  split
  · unfold quoted
    split <;> simp
  · unfold mark
    repeat' split
    all_goals simp

/-- What follows the first token is shorter than the text. -/
theorem rest_length_first (c : Char) (cs : List Char) :
    (first c cs).rest.length < (c :: cs).length := by
  have h := congrArg List.length (text_append_rest_first c cs)
  have := List.length_pos_iff.2 (text_first_ne_nil c cs)
  simp only [List.length_append, List.length_cons] at h ⊢
  omega

end Lexeme

/-- A place in a query: the text that follows it and the number of characters before it. -/
structure Cursor where
  rest : List Char
  offset : Nat
deriving DecidableEq, Repr

namespace Cursor

/-- The start of a query. -/
def ofQuery (query : String) : Cursor :=
  ⟨query.toList, 0⟩

/-- The next token and the place after it. At the end of the query this is the empty token of kind
    `finish`, again and again. -/
def next (p : Cursor) : Token × Cursor :=
  let start := p.offset + (p.rest.takeWhile Text.isBlank).length
  match p.rest.dropWhile Text.isBlank with
  | [] => (⟨.finish, "", start⟩, ⟨[], start⟩)
  | c :: cs =>
    let l := Lexeme.first c cs
    (⟨l.kind, String.ofList l.text, start⟩, ⟨l.rest, start + l.text.length⟩)

/-- A token other than the end leaves less text to read. -/
theorem next_rest_length {p q : Cursor} {t : Token} (h : p.next = (t, q))
    (ht : t.kind ≠ .finish) : q.rest.length < p.rest.length := by
  have hle := (List.dropWhile_suffix Text.isBlank (l := p.rest)).length_le
  unfold next at h
  split at h
  · simp_all only [Prod.mk.injEq]
    simp [← h.1] at ht
  · rename_i c cs hr
    have := Lexeme.rest_length_first c cs
    simp only [Prod.mk.injEq] at h
    simp only [← h.2]
    rw [hr] at hle
    omega

/-- The tokens from a place on, without the one that marks the end. -/
def tokens (p : Cursor) : List Token :=
  match h : p.next with
  | (t, q) =>
    if ht : t.kind = .finish then []
    else
      have := next_rest_length h ht
      t :: tokens q
termination_by p.rest.length

/-- The tokens from a place on, by the next one. -/
theorem tokens_of_next {p q : Cursor} {t : Token} (h : p.next = (t, q)) :
    p.tokens = if t.kind = .finish then [] else t :: q.tokens := by
  rw [tokens]
  simp [h]

end Cursor

/-- The tokens of a query, without the one that marks its end. -/
def tokenize (query : String) : List Token :=
  (Cursor.ofQuery query).tokens

end RecordQuery
