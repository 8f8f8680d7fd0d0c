import RecordQuery.Proofs.Token.Boundary

/-!
# Tokens from left to right

How a text is cut into tokens, as a relation with a rule for a blank and a rule for a token. A query
may be continued after a blank without a change to the tokens that it has: `Cursor.tokens_append`.
-/

namespace RecordQuery

namespace Cursor

variable {c : Char}

theorem next_nil (n : Nat) : (⟨[], n⟩ : Cursor).next = (⟨.finish, "", n⟩, ⟨[], n⟩) :=
  rfl

theorem tokens_nil (n : Nat) : (⟨[], n⟩ : Cursor).tokens = [] := by
  rw [tokens_of_next (next_nil n)]
  rfl

theorem next_blank (blank : Text.isBlank c = true) (n : Nat) (cs : List Char) :
    (⟨c :: cs, n⟩ : Cursor).next = (⟨cs, n + 1⟩ : Cursor).next := by
  simp only [next, List.takeWhile_cons_of_pos blank, List.dropWhile_cons_of_pos blank,
    List.length_cons, Nat.add_assoc, Nat.add_comm 1]

/-- The next token comes after the blanks. -/
theorem next_skip {blanks : List Char} (allBlank : ∀ c ∈ blanks, Text.isBlank c = true) (n : Nat)
    (cs : List Char) : (⟨blanks ++ cs, n⟩ : Cursor).next = (⟨cs, n + blanks.length⟩ : Cursor).next := by
  induction blanks generalizing n with
  | nil => rfl
  | cons c blanks ih =>
    obtain ⟨blank, others⟩ := List.forall_mem_cons.mp allBlank
    rw [List.cons_append, next_blank blank, ih others, List.length_cons, Nat.add_assoc,
      Nat.add_comm 1]

/-- A text is some blanks and what does not begin with one. -/
theorem exists_gap (cs : List Char) : ∃ blanks rest, cs = blanks ++ rest ∧
    (∀ c ∈ blanks, Text.isBlank c = true) ∧ ∀ c ∈ rest.head?, Text.isBlank c = false :=
  ⟨cs.takeWhile Text.isBlank, cs.dropWhile Text.isBlank, List.takeWhile_append_dropWhile.symm,
    List.all_eq_true.mp List.all_takeWhile, Lexeme.head?_dropWhile_ends Text.isBlank cs⟩

/-- A character that is no blank is the first one of the next token. -/
theorem next_cons (visible : Text.isBlank c = false) (n : Nat) (cs : List Char) :
    (⟨c :: cs, n⟩ : Cursor).next =
      (⟨(Lexeme.first c cs).kind, String.ofList (Lexeme.first c cs).text, n⟩,
        ⟨(Lexeme.first c cs).rest, n + (Lexeme.first c cs).text.length⟩) := by
  have other : ¬ Text.isBlank c = true := by
    rw [visible]
    exact Bool.false_ne_true
  simp only [next, List.takeWhile_cons_of_neg other, List.dropWhile_cons_of_neg other,
    List.length_nil, Nat.add_zero]

/-- A blank before a token counts for its offset and for nothing else. -/
theorem tokens_blank (blank : Text.isBlank c = true) (n : Nat) (cs : List Char) :
    (⟨c :: cs, n⟩ : Cursor).tokens = (⟨cs, n + 1⟩ : Cursor).tokens := by
  cases taken : (⟨cs, n + 1⟩ : Cursor).next with
  | mk t q => rw [tokens_of_next ((next_blank blank n cs).trans taken), tokens_of_next taken]

/-- The tokens of a text that begins with no blank are its first one and those of what follows. -/
theorem tokens_cons (visible : Text.isBlank c = false) (n : Nat) (cs : List Char) :
    (⟨c :: cs, n⟩ : Cursor).tokens =
      ⟨(Lexeme.first c cs).kind, String.ofList (Lexeme.first c cs).text, n⟩ ::
        (⟨(Lexeme.first c cs).rest, n + (Lexeme.first c cs).text.length⟩ : Cursor).tokens := by
  rw [tokens_of_next (next_cons visible n cs), if_neg (Lexeme.kind_first c cs).1]

/-- `Scans n cs ts`: the text `cs` at the offset `n` is cut into the tokens `ts`. -/
inductive Scans : Nat → List Char → List Token → Prop
  | nil {n : Nat} : Scans n [] []
  | blank {n : Nat} {c : Char} {cs : List Char} {ts : List Token} (blank : Text.isBlank c = true)
      (others : Scans (n + 1) cs ts) : Scans n (c :: cs) ts
  | token {n : Nat} {c : Char} {cs tail rest : List Char} {k : TokenKind} {ts : List Token}
      (visible : Text.isBlank c = false) (taken : Lexeme.first c cs = ⟨k, c :: tail, rest⟩)
      (others : Scans (n + (c :: tail).length) rest ts) :
      Scans n (c :: cs) (⟨k, String.ofList (c :: tail), n⟩ :: ts)

theorem scans_tokens (cs : List Char) (n : Nat) : Scans n cs (⟨cs, n⟩ : Cursor).tokens := by
  induction size : cs.length using Nat.strongRecOn generalizing cs n with
  | ind size ih =>
    subst size
    cases cs with
    | nil =>
      rw [tokens_nil]
      exact .nil
    | cons c cs =>
      cases visible : Text.isBlank c with
      | true =>
        rw [tokens_blank visible]
        exact .blank visible (ih cs.length (by simp) cs (n + 1) rfl)
      | false =>
        obtain ⟨k, tail, rest, taken, whole⟩ := Lexeme.exists_first c cs
        have shorter := Lexeme.rest_length_first c cs
        rw [taken] at shorter
        rw [tokens_cons visible, taken]
        exact .token visible taken (ih rest.length shorter rest _ rfl)

theorem Scans.tokens_eq {n : Nat} {cs : List Char} {ts : List Token} (scans : Scans n cs ts) :
    (⟨cs, n⟩ : Cursor).tokens = ts := by
  induction scans with
  | nil => exact tokens_nil _
  | blank blank others ih => rw [tokens_blank blank, ih]
  | token visible taken others ih => rw [tokens_cons visible, taken, ih]

theorem Scans.kind_ne_finish {n : Nat} {cs : List Char} {ts : List Token} (scans : Scans n cs ts) :
    ∀ t ∈ ts, t.kind ≠ .finish := by
  induction scans with
  | nil => exact List.forall_mem_nil _
  | blank _ _ ih => exact ih
  | @token n c cs tail rest k ts _ taken _ ih =>
    refine List.forall_mem_cons.mpr ⟨?_, ih⟩
    have kind := (Lexeme.kind_first c cs).1
    rwa [taken] at kind

/-- Nothing comes after an unclosed text. -/
theorem Scans.eq_nil_of_unclosed {n : Nat} {cs : List Char} {before after : List Token} {t : Token}
    (scans : Scans n cs (before ++ t :: after)) (unclosed : t.kind = .unclosedText) : after = [] := by
  generalize whole : before ++ t :: after = ts at scans
  induction scans generalizing before with
  | nil => exact absurd whole (List.append_ne_nil_of_right_ne_nil before (List.cons_ne_nil t after))
  | blank _ _ ih => exact ih whole
  | @token n c cs tail rest k ts _ taken others ih =>
    cases before with
    | nil =>
      cases whole
      have rest := (Lexeme.kind_first c cs).2
      rw [taken] at rest
      cases rest unclosed
      cases others
      rfl
    | cons u before => exact ih (List.cons.inj whole).2

/-- An unclosed text ends where the query does. -/
theorem Scans.end_of_unclosed {n : Nat} {cs : List Char} {ts : List Token}
    (scans : Scans n cs ts) :
    ∀ t ∈ ts, t.kind = .unclosedText → t.offset + t.text.length = n + cs.length := by
  induction scans with
  | nil => exact List.forall_mem_nil _
  | blank _ _ ih =>
    intro t member unclosed
    rw [ih t member unclosed, List.length_cons]
    omega
  | @token n c cs tail rest k ts _ taken _ ih =>
    have whole := Lexeme.text_append_rest_first c cs
    have kind := (Lexeme.kind_first c cs).2
    rw [taken] at whole kind
    have lengths := congrArg List.length whole
    rw [List.length_append] at lengths
    refine List.forall_mem_cons.mpr ⟨fun unclosed => ?_, fun t member unclosed => ?_⟩
    · cases kind unclosed
      rw [← lengths, String.length_ofList, List.length_nil, Nat.add_zero]
    · rw [ih t member unclosed, ← lengths, Nat.add_assoc]

/-- A token begins inside its text. -/
theorem Scans.offset_lt {n : Nat} {cs : List Char} {ts : List Token} (scans : Scans n cs ts) :
    ∀ t ∈ ts, t.offset < n + cs.length := by
  induction scans with
  | nil => exact List.forall_mem_nil _
  | blank _ _ ih =>
    intro t member
    have inside := ih t member
    rw [List.length_cons]
    omega
  | @token n c cs tail rest k ts _ taken _ ih =>
    have whole := Lexeme.text_append_rest_first c cs
    rw [taken] at whole
    have lengths : (c :: tail).length + rest.length = (c :: cs).length := by
      rw [← List.length_append, ← whole]
    refine List.forall_mem_cons.mpr ⟨?_, fun t member => ?_⟩
    · show n < n + (c :: cs).length
      rw [List.length_cons]
      omega
    · have inside := ih t member
      omega

/-- A text that is closed can be followed by one that ends every token. -/
theorem Scans.append {n : Nat} {cs ds : List Char} {ts us : List Token} (first : Scans n cs ts)
    (closed : ∀ t ∈ ts, t.kind ≠ .unclosedText) (apart : ∀ text, Apart text ds)
    (second : Scans (n + cs.length) ds us) : Scans n (cs ++ ds) (ts ++ us) := by
  induction first with
  | nil => exact second
  | @blank n c cs ts blank others ih =>
    refine .blank blank (ih closed ?_)
    rwa [List.length_cons, Nat.add_comm cs.length, ← Nat.add_assoc] at second
  | @token n c cs tail rest k ts visible taken others ih =>
    obtain ⟨closed, closedOthers⟩ := List.forall_mem_cons.mp closed
    obtain ⟨_, _, _, same, rfl⟩ := Lexeme.exists_first c cs
    cases same.symm.trans taken
    have ends := (Lexeme.apart_first taken).append (apart (c :: tail))
    rw [List.cons_append, List.append_assoc]
    refine .token visible (Lexeme.first_of_apart taken closed ends) (ih closedOthers ?_)
    rwa [← List.cons_append, List.length_append, ← Nat.add_assoc] at second

/-- A query without an unclosed text can be continued by a text that ends every token: the tokens of
    the continuation come after its own. -/
theorem tokens_append {ds : List Char} (apart : ∀ text, Apart text ds) (cs : List Char) (n : Nat)
    (closed : ∀ t ∈ (⟨cs, n⟩ : Cursor).tokens, t.kind ≠ .unclosedText) :
    (⟨cs ++ ds, n⟩ : Cursor).tokens =
      (⟨cs, n⟩ : Cursor).tokens ++ (⟨ds, n + cs.length⟩ : Cursor).tokens :=
  ((scans_tokens cs n).append closed apart (scans_tokens ds _)).tokens_eq

end Cursor

/-- The tokens of a query. -/
theorem scans_tokenize (query : String) : Cursor.Scans 0 query.toList (tokenize query) :=
  Cursor.scans_tokens query.toList 0

theorem Token.offset_lt_length {query : String} {t : Token} (member : t ∈ tokenize query) :
    t.offset < query.length := by
  have inside := (scans_tokenize query).offset_lt t member
  rwa [Nat.zero_add, String.length_toList] at inside

end RecordQuery
