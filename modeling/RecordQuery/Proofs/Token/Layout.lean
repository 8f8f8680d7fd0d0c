import Mathlib.Data.List.Forall2
import RecordQuery.Proofs.Token.Vocabulary

/-!
# Layout

The texts in which the words of a query stand again, with other blanks between them and with its
keywords in other letter cases: `Relaid`. Such a text is cut into the same words, as the end of a word
does not depend on which blanks come after it: `Relaid.words`.
-/

namespace RecordQuery

/-- In lower case a character is the same, or both are letters. -/
theorem toLower_cases (c : Char) : c.toLower = c ∨ c.isAlpha = true ∧ c.toLower.isAlpha = true := by
  unfold Char.toLower
  split
  · next upper =>
    refine .inr ⟨Bool.or_eq_true_iff.mpr (.inl (decide_eq_true upper)),
      Bool.or_eq_true_iff.mpr (.inr (Bool.and_eq_true_iff.mpr ?_))⟩
    have a : 'a'.val.toNat = 97 := rfl
    have z : 'z'.val.toNat = 122 := rfl
    have shift : ('a'.val - 'A'.val).toNat = 32 := rfl
    obtain ⟨least, greatest⟩ := toNat_of_isUpper (decide_eq_true upper)
    rw [Char.toNat] at least greatest
    simp only [ge_iff_le, decide_eq_true_eq, UInt32.le_iff_toNat_le, UInt32.toNat_add]
    omega
  · exact .inl rfl

theorem isNameStart_toLower (c : Char) : isNameStart c.toLower = isNameStart c := by
  rcases toLower_cases c with same | ⟨letter, lower⟩
  · rw [same]
  · simp only [isNameStart, letter, lower, Bool.true_or]

theorem isNamePart_toLower (c : Char) : isNamePart c.toLower = isNamePart c := by
  rcases toLower_cases c with same | ⟨letter, lower⟩
  · rw [same]
  · simp only [isNamePart, isNameStart, letter, lower, Bool.true_or]

namespace Word

/-- The same word, where a keyword may be in another letter case. -/
structure Recased (w v : Word) : Prop where
  kind : v.kind = w.kind
  text : v.text = w.text ∨
    (∃ k, w.kind = .keyword k) ∧ v.text.toList.map Char.toLower = w.text.toList.map Char.toLower

/-- A keyword is a token by itself in any letter case. -/
theorem Recased.isWhole {w v : Word} (recased : w.Recased v) (whole : w.IsWhole) : v.IsWhole := by
  rcases recased.text with same | ⟨isKeyword, lower⟩
  · have eq : v = w := by
      rw [Word.mk.injEq]
      exact ⟨recased.kind, same⟩
    rwa [eq]
  · obtain ⟨c, cs, text, start, parts, kind⟩ := whole.exists_parts (.inr isKeyword)
    rw [text, List.map_cons, List.map_eq_cons_iff] at lower
    obtain ⟨d, ds, shape, first, others⟩ := lower
    refine isWhole_of_parts shape ?_ (fun e member => ?_) ?_
    · rw [← isNameStart_toLower, first, isNameStart_toLower, start]
    · have inside : e.toLower ∈ cs.map Char.toLower := others ▸ List.mem_map_of_mem member
      obtain ⟨f, member, same⟩ := List.mem_map.mp inside
      rw [← isNamePart_toLower, ← same, isNamePart_toLower, parts f member]
    · rw [recased.kind, ← kind, wordKind, wordKind, List.map_cons, List.map_cons, first, others]

theorem isWhole_of_recased {ws vs : List Word} (recased : List.Forall₂ Recased ws vs)
    (whole : ∀ w ∈ ws, w.IsWhole) : ∀ v ∈ vs, v.IsWhole := by
  induction recased with
  | nil => exact whole
  | cons first _ ih =>
    obtain ⟨isWhole, others⟩ := List.forall_mem_cons.mp whole
    exact List.forall_mem_cons.mpr ⟨first.isWhole isWhole, ih others⟩

end Word

/-- `Laid ws cs`: the text `cs` is the words `ws`, with blanks after each of them. Between two words
    there is a blank, and an unclosed text, which would go on with blanks, is at the end. -/
inductive Laid : List Word → List Char → Prop
  | nil : Laid [] []
  | word {w : Word} {ws : List Word} {gap cs : List Char}
      (blank : ∀ c ∈ gap, Text.isBlank c = true) (apart : ws ≠ [] → gap ≠ [])
      (unclosed : w.kind = .unclosedText → gap = []) (others : Laid ws cs) :
      Laid (w :: ws) (w.text.toList ++ (gap ++ cs))

/-- Blanks before a text count for the offsets of its tokens and for nothing else. -/
theorem Cursor.Scans.gap {blanks cs : List Char} {ts : List Token}
    (allBlank : ∀ c ∈ blanks, Text.isBlank c = true) {n : Nat}
    (scans : Scans (n + blanks.length) cs ts) : Scans n (blanks ++ cs) ts := by
  induction blanks generalizing n with
  | nil => exact scans
  | cons c blanks ih =>
    obtain ⟨blank, others⟩ := List.forall_mem_cons.mp allBlank
    refine .blank blank (ih others ?_)
    rwa [List.length_cons, Nat.add_comm blanks.length, ← Nat.add_assoc] at scans

/-- A text that is laid out from tokens is cut into them again. -/
theorem Laid.scans {ws : List Word} {cs : List Char} (laid : Laid ws cs)
    (whole : ∀ w ∈ ws, w.IsWhole) (n : Nat) :
    ∃ ts, Cursor.Scans n cs ts ∧ ts.map Token.word = ws := by
  induction laid generalizing n with
  | nil => exact ⟨[], .nil, rfl⟩
  | @word w ws gap cs blank apart unclosed others ih =>
    obtain ⟨⟨c, tail, text, visible, taken⟩, wholeOthers⟩ := List.forall_mem_cons.mp whole
    obtain ⟨ts, scans, words⟩ := ih wholeOthers (n + (c :: tail).length + gap.length)
    have last : gap = [] → cs = [] := by
      intro none
      by_cases more : ws = []
      · subst more
        cases others
        rfl
      · exact absurd none (apart more)
    have again : Lexeme.first c (tail ++ (gap ++ cs)) = ⟨w.kind, c :: tail, gap ++ cs⟩ := by
      by_cases closed : w.kind = .unclosedText
      · have none := unclosed closed
        rw [none, last none, List.nil_append, List.append_nil]
        exact taken
      · refine Lexeme.first_of_apart taken closed ?_
        cases gap with
        | nil =>
          rw [last rfl]
          exact apart_nil _
        | cons d gap => exact apart_of_isBlank _ (blank d List.mem_cons_self) _
    rw [text]
    refine ⟨⟨w.kind, String.ofList (c :: tail), n⟩ :: ts, .token visible again (scans.gap blank), ?_⟩
    rw [List.map_cons, words, Token.word, ← text, String.ofList_toList]

/-- `Relaid query other`: the words of the query stand in the other text again, each keyword in any
    letter case. There may be any blanks before the first word; between two words there are some, and
    there may be some after the last one unless it is an unclosed text. -/
def Relaid (query other : String) : Prop :=
  ∃ lead ws cs, (∀ c ∈ lead, Text.isBlank c = true) ∧
    List.Forall₂ Word.Recased ((tokenize query).map Token.word) ws ∧ Laid ws cs ∧
    other.toList = lead ++ cs

/-- The tokens of a text that is laid out anew have the same kinds and, but for the letter case of
    keywords, the same texts. -/
theorem Relaid.words {query other : String} (relaid : Relaid query other) :
    List.Forall₂ (fun t u => t.word.Recased u.word) (tokenize query) (tokenize other) := by
  obtain ⟨lead, ws, cs, blank, recased, laid, text⟩ := relaid
  have whole : ∀ w ∈ ws, w.IsWhole :=
    Word.isWhole_of_recased recased (List.forall_mem_map.mpr (scans_tokenize query).isWhole)
  obtain ⟨ts, scans, words⟩ := laid.scans whole (0 + lead.length)
  have tokens : tokenize other = ts := by
    rw [tokenize, Cursor.ofQuery, text, (scans.gap blank).tokens_eq]
  rw [← words, List.forall₂_map_left_iff, List.forall₂_map_right_iff] at recased
  rwa [tokens]

end RecordQuery
