import RecordQuery.Proofs.Token.Scans

/-!
# Words

The tokens of a query without their places, and the texts in which some words stand one after the
other. Blanks may stand between any two words and have to where the first one would go on with the
second. Such a text is read as its words: `Spells.tokenize`.
-/

namespace RecordQuery

/-- A token without its place. -/
structure Word where
  kind : TokenKind
  text : String
deriving DecidableEq, Repr

/-- The word that a token is. -/
def Token.word (t : Token) : Word :=
  ⟨t.kind, t.text⟩

/-- A word that is read as one token if it stands alone. -/
def Word.IsLexeme (w : Word) : Prop :=
  w.kind ≠ .unclosedText ∧ ∃ c tail, w.text.toList = c :: tail ∧ Text.isBlank c = false ∧
    Lexeme.first c tail = ⟨w.kind, c :: tail, []⟩

/-- A word that is a token if nothing comes after it. Unlike a lexeme it may be an unclosed text. -/
def Word.IsWhole (w : Word) : Prop :=
  ∃ c tail, w.text.toList = c :: tail ∧ Text.isBlank c = false ∧
    Lexeme.first c tail = ⟨w.kind, c :: tail, []⟩

/-- What is cut from a text is a token by itself. -/
theorem Cursor.Scans.isWhole {n : Nat} {cs : List Char} {ts : List Token} (scans : Scans n cs ts) :
    ∀ t ∈ ts, t.word.IsWhole := by
  induction scans with
  | nil => exact List.forall_mem_nil _
  | blank _ _ ih => exact ih
  | @token n c cs tail rest k ts visible taken _ ih =>
    refine List.forall_mem_cons.mpr ⟨⟨c, tail, String.toList_ofList, visible, ?_⟩, ih⟩
    by_cases closed : k = .unclosedText
    · obtain ⟨_, _, _, same, rfl⟩ := Lexeme.exists_first c cs
      cases same.symm.trans taken
      have none := (Lexeme.kind_first c (tail ++ rest)).2
      rw [taken] at none
      cases none closed
      rwa [List.append_nil] at taken
    · have alone := Lexeme.first_of_apart taken closed (apart_nil _)
      rwa [List.append_nil] at alone

/-- `Spells ws cs`: the text `cs` is the words `ws`, with blanks. -/
inductive Spells : List Word → List Char → Prop
  | nil : Spells [] []
  | blank {ws : List Word} {c : Char} {cs : List Char} (blank : Text.isBlank c = true)
      (others : Spells ws cs) : Spells ws (c :: cs)
  | word {w : Word} {ws : List Word} {cs : List Char} (lexeme : w.IsLexeme)
      (apart : Apart w.text.toList cs) (others : Spells ws cs) :
      Spells (w :: ws) (w.text.toList ++ cs)

namespace Spells

variable {ws : List Word} {cs : List Char}

theorem scans (spells : Spells ws cs) (n : Nat) :
    ∃ ts, Cursor.Scans n cs ts ∧ ts.map Token.word = ws := by
  induction spells generalizing n with
  | nil => exact ⟨[], .nil, rfl⟩
  | blank blank others ih =>
    obtain ⟨ts, scans, words⟩ := ih (n + 1)
    exact ⟨ts, .blank blank scans, words⟩
  | @word w ws cs lexeme apart others ih =>
    obtain ⟨closed, c, tail, text, visible, taken⟩ := lexeme
    obtain ⟨ts, scans, words⟩ := ih (n + (c :: tail).length)
    rw [text] at apart ⊢
    refine ⟨⟨w.kind, String.ofList (c :: tail), n⟩ :: ts, ?_, ?_⟩
    · exact .token visible (Lexeme.first_of_apart taken closed apart) scans
    · rw [List.map_cons, words, Token.word, ← text, String.ofList_toList]

/-- Blanks before a text do not matter. -/
theorem gap {blanks : List Char} (allBlank : ∀ c ∈ blanks, Text.isBlank c = true)
    (spells : Spells ws cs) : Spells ws (blanks ++ cs) := by
  induction blanks with
  | nil => exact spells
  | cons c blanks ih =>
    obtain ⟨blank, others⟩ := List.forall_mem_cons.mp allBlank
    exact .blank blank (ih others)

/-- A text can be followed by one that ends every token. -/
theorem append {vs : List Word} {ds : List Char} (first : Spells ws cs)
    (apart : ∀ text, Apart text ds) (second : Spells vs ds) : Spells (ws ++ vs) (cs ++ ds) := by
  induction first with
  | nil => exact second
  | blank blank _ ih => exact .blank blank ih
  | word lexeme ends _ ih =>
    rw [List.cons_append, List.append_assoc]
    exact .word lexeme (ends.append (apart _)) ih

/-- A text is read as the words that it spells. -/
theorem tokenize {query : String} (spells : Spells ws query.toList) :
    (tokenize query).map Token.word = ws := by
  obtain ⟨ts, scans, words⟩ := spells.scans 0
  rw [RecordQuery.tokenize, Cursor.ofQuery, scans.tokens_eq, words]

end Spells

/-- A text without an unclosed text in it spells the words that are cut from it. -/
theorem Cursor.Scans.spells {n : Nat} {cs : List Char} {ts : List Token} (scans : Scans n cs ts)
    (closed : ∀ t ∈ ts, t.kind ≠ .unclosedText) : Spells (ts.map Token.word) cs := by
  have whole := scans.isWhole
  induction scans with
  | nil => exact .nil
  | blank blank _ ih => exact .blank blank (ih closed whole)
  | @token n c cs tail rest k ts visible taken _ ih =>
    obtain ⟨isClosed, closedOthers⟩ := List.forall_mem_cons.mp closed
    obtain ⟨isWhole, wholeOthers⟩ := List.forall_mem_cons.mp whole
    obtain ⟨_, _, _, same, rfl⟩ := Lexeme.exists_first c cs
    cases same.symm.trans taken
    have apart := Lexeme.apart_first taken
    rw [← String.toList_ofList (l := c :: tail)] at apart
    have spells := Spells.word ⟨isClosed, isWhole⟩ apart (ih closedOthers wholeOthers)
    rwa [Token.word, String.toList_ofList, List.cons_append] at spells

namespace Word

/-- Some words in a text, with a space before each. -/
def spell (ws : List Word) : List Char :=
  ws.flatMap fun w => ' ' :: w.text.toList

theorem spell_cons (w : Word) (ws : List Word) :
    spell (w :: ws) = ' ' :: (w.text.toList ++ spell ws) := by
  rw [spell, List.flatMap_cons, List.cons_append, spell]

/-- A text that begins with a space ends every token. -/
theorem apart_spell (text : List Char) (ws : List Word) : Apart text (spell ws) := by
  cases ws with
  | nil => exact apart_nil text
  | cons w ws =>
    rw [spell_cons]
    exact apart_of_isBlank text (by decide) _

theorem spells_spell {ws : List Word} (lexemes : ∀ w ∈ ws, w.IsLexeme) :
    Spells ws (spell ws) := by
  induction ws with
  | nil => exact .nil
  | cons w ws ih =>
    obtain ⟨lexeme, others⟩ := List.forall_mem_cons.mp lexemes
    rw [spell_cons]
    exact .blank (by decide) (.word lexeme (apart_spell _ ws) (ih others))

end Word

/-- A query that has no unclosed text can be continued by any words. -/
theorem tokenize_append_spell {query : String} {ws : List Word}
    (closed : ∀ t ∈ tokenize query, t.kind ≠ .unclosedText) (lexemes : ∀ w ∈ ws, w.IsLexeme) :
    ∃ us, tokenize (query ++ String.ofList (Word.spell ws)) = tokenize query ++ us ∧
      us.map Token.word = ws := by
  obtain ⟨us, scans, words⟩ := (Word.spells_spell lexemes).scans (0 + query.toList.length)
  refine ⟨us, ?_, words⟩
  rw [tokenize, Cursor.ofQuery, String.toList_append, String.toList_ofList,
    Cursor.tokens_append (fun text => Word.apart_spell text ws) _ _ closed, scans.tokens_eq]
  rfl

end RecordQuery
