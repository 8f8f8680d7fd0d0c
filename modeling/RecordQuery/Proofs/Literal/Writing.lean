import RecordQuery.Proofs.Token.LongestMatch

/-!
# The ways to write a text

A text can be written between quotes in many ways, as most characters may stand behind a backslash or
without one. However it is written, the literal ends at its closing quote and not before, whatever comes
after it, and stands for the text; and each text literal of a query is such a writing:
`reads_every_writing`. A host that puts a text into a query in one of these ways cannot be made to ask
for something else.
-/

namespace RecordQuery.Literal

/-- `IsCharWriting c w`: between quotes the character `c` may be written as `w`. -/
inductive IsCharWriting : Char → List Char → Prop
  | bare {c : Char} (noQuote : c ≠ '\'') (noEscape : c ≠ '\\') : IsCharWriting c [c]
  | escaped {c : Char} (noLetter : c ≠ 't' ∧ c ≠ 'n' ∧ c ≠ 'r') : IsCharWriting c ['\\', c]
  | tab : IsCharWriting '\t' ['\\', 't']
  | newline : IsCharWriting '\n' ['\\', 'n']
  | carriageReturn : IsCharWriting '\r' ['\\', 'r']

/-- `IsWriting cs w`: between quotes the text `cs` may be written as `w`, one character after
    another. -/
inductive IsWriting : List Char → List Char → Prop
  | nil : IsWriting [] []
  | cons {c : Char} {cs w v : List Char} (first : IsCharWriting c w) (others : IsWriting cs v) :
      IsWriting (c :: cs) (w ++ v)

namespace IsCharWriting

variable {c : Char} {w : List Char}

theorem enclosed (writing : IsCharWriting c w) {v : List Char} (others : Enclosed v) :
    Enclosed (w ++ v) := by
  cases writing with
  | bare noQuote noEscape => exact .plain noQuote noEscape others
  | escaped _ => exact .escaped c others
  | tab => exact .escaped 't' others
  | newline => exact .escaped 'n' others
  | carriageReturn => exact .escaped 'r' others

theorem unescape (writing : IsCharWriting c w) (v : List Char) :
    unescape (w ++ v) = c :: Literal.unescape v := by
  cases writing with
  | bare noQuote noEscape => exact unescape_cons noEscape v
  | escaped noLetter =>
    have itself : unescapeChar c = c := by
      rw [unescapeChar, if_neg noLetter.1, if_neg noLetter.2.1, if_neg noLetter.2.2]
    show unescapeChar c :: Literal.unescape v = _
    rw [itself]
  | tab => rfl
  | newline => rfl
  | carriageReturn => rfl

/-- A character behind a backslash is a writing of what it stands for. -/
theorem of_escaped (c : Char) : IsCharWriting (unescapeChar c) ['\\', c] := by
  by_cases tab : c = 't'
  · subst tab
    exact .tab
  by_cases newline : c = 'n'
  · subst newline
    exact .newline
  by_cases carriageReturn : c = 'r'
  · subst carriageReturn
    exact .carriageReturn
  · rw [unescapeChar, if_neg tab, if_neg newline, if_neg carriageReturn]
    exact .escaped ⟨tab, newline, carriageReturn⟩

end IsCharWriting

/-- A writing has no quote of its own that could end the literal. -/
theorem IsWriting.enclosed {cs w : List Char} (writing : IsWriting cs w) : Enclosed w := by
  induction writing with
  | nil => exact .nil
  | cons first _ ih => exact first.enclosed ih

/-- A writing stands for the text. -/
theorem IsWriting.unescape {cs w : List Char} (writing : IsWriting cs w) : unescape w = cs := by
  induction writing with
  | nil => rfl
  | cons first _ ih => rw [first.unescape, ih]

/-- Whatever is between the quotes of a literal is a writing of what it stands for. -/
theorem isWriting_of_enclosed {w : List Char} (enclosed : Enclosed w) : IsWriting (unescape w) w := by
  induction enclosed with
  | nil => exact .nil
  | plain noQuote noEscape _ ih =>
    rw [unescape_cons noEscape]
    exact .cons (.bare noQuote noEscape) ih
  | escaped c _ ih => exact .cons (.of_escaped c) ih

/-- What is read as a text literal is enclosed by quotes. -/
theorem exists_enclosed_of_isWhole {w : Word} (whole : w.IsWhole) (text : w.kind = .text) :
    ∃ inner, w.text.toList = '\'' :: (inner ++ ['\'']) ∧ Enclosed inner := by
  obtain ⟨c, tail, same, _, taken⟩ := whole
  rcases TokenKind.forms_first c tail with forms | ⟨kind, _⟩ | ⟨kind, _⟩
  · rw [taken, text] at forms
    rw [same]
    cases forms with
    | text enclosed => exact ⟨_, rfl, enclosed⟩
  · rw [taken, text] at kind
    cases kind
  · rw [taken, text] at kind
    cases kind

/-- However a text is written between quotes and whatever follows, the literal is read as one token that
    ends at its closing quote and stands for the text. Each text literal of a query is a writing of the
    text that it stands for. -/
theorem reads_every_writing :
    (∀ (s : String) (w rest : List Char) (n : Nat), IsWriting s.toList w →
      (⟨'\'' :: (w ++ ['\'']) ++ rest, n⟩ : Cursor).next =
          (⟨.text, String.ofList ('\'' :: (w ++ ['\''])), n⟩,
            ⟨rest, n + ('\'' :: (w ++ ['\''])).length⟩) ∧
        decodeText (String.ofList ('\'' :: (w ++ ['\'']))) = s) ∧
    ∀ query : String, ∀ t ∈ tokenize query, t.kind = .text →
      ∃ w, t.text.toList = '\'' :: (w ++ ['\'']) ∧ IsWriting (decodeText t.text).toList w := by
  constructor
  · intro s w rest n writing
    have split := writing.enclosed.splitText rest
    have first : Lexeme.first '\'' (w ++ '\'' :: rest) =
        ⟨.text, '\'' :: (w ++ ['\'']), rest⟩ := by
      show Lexeme.quoted _ = _
      rw [Lexeme.quoted, split]
    have whole : '\'' :: (w ++ ['\'']) ++ rest = '\'' :: (w ++ '\'' :: rest) := by simp
    constructor
    · rw [whole, Cursor.next_cons (by decide), first]
    · rw [decodeText_quoted, writing.unescape, String.ofList_toList]
  · intro query t member text
    obtain ⟨w, same, enclosed⟩ :=
      exists_enclosed_of_isWhole ((scans_tokenize query).isWhole t member) text
    refine ⟨w, same, ?_⟩
    have literal : t.text = String.ofList ('\'' :: (w ++ ['\''])) := by
      rw [← String.ofList_toList (s := t.text)]
      exact congrArg String.ofList same
    rw [literal, decodeText_quoted, String.toList_ofList]
    exact isWriting_of_enclosed enclosed

/-- A text that looks like the end of its literal and of a call stays inside. -/
theorem reads_closing_text :
    let w := ['\\', '\'', ')', '\\', '\\']
    let rest := " or b(2)".toList
    IsWriting "')\\".toList w ∧
    (⟨'\'' :: (w ++ ['\'']) ++ rest, 2⟩ : Cursor).next =
        (⟨.text, String.ofList ('\'' :: (w ++ ['\''])), 2⟩, ⟨rest, 9⟩) ∧
      decodeText (String.ofList ('\'' :: (w ++ ['\'']))) = "')\\" := by
  intro w rest
  have chars : "')\\".toList = ['\'', ')', '\\'] := rfl
  have writing : IsWriting "')\\".toList w := by
    rw [chars]
    refine .cons (w := ['\\', '\'']) (.escaped (by decide)) ?_
    refine .cons (w := [')']) (.bare (by decide) (by decide)) ?_
    exact .cons (w := ['\\', '\\']) (.escaped (by decide)) .nil
  exact ⟨writing, reads_every_writing.1 "')\\" w rest 2 writing⟩

end RecordQuery.Literal
