import RecordQuery.Proofs.Token.Vocabulary

/-!
# The longest token

The texts that are tokens, kind by kind, as patterns that do not mention how a query is scanned:
`TokenKind.Forms`. At each place of a query the next token is the longest one that stands there, and
what is no token of the language is an unclosed text, a single illegal character or the end:
`Cursor.next_longest`.
-/

namespace RecordQuery

/-- The characters `[A-Za-z_$]`. -/
def IsNameLetter (c : Char) : Prop :=
  'A' ≤ c ∧ c ≤ 'Z' ∨ 'a' ≤ c ∧ c ≤ 'z' ∨ c = '_' ∨ c = '$'

/-- The characters `[0-9]`. -/
def IsDecimalDigit (c : Char) : Prop :=
  '0' ≤ c ∧ c ≤ '9'

/-- The texts `[A-Za-z_$][A-Za-z0-9_$]*`, which are names or keywords. -/
def IsRun (text : List Char) : Prop :=
  ∃ c cs, text = c :: cs ∧ IsNameLetter c ∧ ∀ d ∈ cs, IsNameLetter d ∨ IsDecimalDigit d

/-- The texts between the quotes of a text literal: a quote stands only behind a backslash, which takes
    one character with it. -/
inductive Enclosed : List Char → Prop
  | nil : Enclosed []
  | plain {c : Char} {cs : List Char} (noQuote : c ≠ '\'') (noEscape : c ≠ '\\')
      (others : Enclosed cs) : Enclosed (c :: cs)
  | escaped (c : Char) {cs : List Char} (others : Enclosed cs) : Enclosed ('\\' :: c :: cs)

/-- `k.Forms text`: the text is a token of the kind `k`. -/
inductive TokenKind.Forms : TokenKind → List Char → Prop
  | openParen : Forms .openParen ['(']
  | closeParen : Forms .closeParen [')']
  | comma : Forms .comma [',']
  | relation (r : Relation) : Forms (.relation r) r.symbol.toList
  | keyword (k : Keyword) {text : List Char} (run : IsRun text)
      (same : text.map Char.toLower = k.spelling.toList) : Forms (.keyword k) text
  | name {text : List Char} (run : IsRun text)
      (other : ∀ k : Keyword, text.map Char.toLower ≠ k.spelling.toList) : Forms .name text
  | integer {c : Char} {cs : List Char} (digits : ∀ d ∈ c :: cs, IsDecimalDigit d) :
      Forms .integer (c :: cs)
  | negative {c : Char} {cs : List Char} (digits : ∀ d ∈ c :: cs, IsDecimalDigit d) :
      Forms .integer ('-' :: c :: cs)
  | text {cs : List Char} (enclosed : Enclosed cs) : Forms .text ('\'' :: (cs ++ ['\'']))

/-- `LongestAt rest k text`: where the query goes on with `rest`, which does not begin with a blank, its
    next token has the kind `k` and the text `text`. -/
inductive LongestAt (rest : List Char) : TokenKind → List Char → Prop
  /-- A token stands here, and each other one that stands here too is shorter. -/
  | token {k : TokenKind} {text : List Char} (here : text <+: rest) (forms : k.Forms text)
      (longest : ∀ (l : TokenKind) (other : List Char), other <+: rest → l.Forms other →
        other.length < text.length ∨ other = text ∧ l = k) : LongestAt rest k text
  /-- A quote is here, no text literal stands here, and the query ends without one. -/
  | unclosed (quote : rest.head? = some '\'')
      (none : ∀ (l : TokenKind) (other : List Char), other <+: rest → ¬ l.Forms other) :
      LongestAt rest .unclosedText rest
  /-- No token stands here. -/
  | illegal {c : Char} (here : rest.head? = some c) (noQuote : c ≠ '\'')
      (none : ∀ (l : TokenKind) (other : List Char), other <+: rest → ¬ l.Forms other) :
      LongestAt rest .illegal [c]
  /-- Nothing is left. -/
  | finish (nothing : rest = []) : LongestAt rest .finish []

theorem isDigit_iff (c : Char) : c.isDigit = true ↔ IsDecimalDigit c :=
  Bool.and_eq_true_iff.trans (and_congr decide_eq_true_iff decide_eq_true_iff)

theorem isNameStart_iff (c : Char) : isNameStart c = true ↔ IsNameLetter c := by
  have upper : c.isUpper = true ↔ 'A' ≤ c ∧ c ≤ 'Z' := decide_eq_true_iff
  have lower : c.isLower = true ↔ 'a' ≤ c ∧ c ≤ 'z' :=
    Bool.and_eq_true_iff.trans (and_congr decide_eq_true_iff decide_eq_true_iff)
  have letter : c.isAlpha = true ↔ ('A' ≤ c ∧ c ≤ 'Z') ∨ ('a' ≤ c ∧ c ≤ 'z') :=
    Bool.or_eq_true_iff.trans (or_congr upper lower)
  rw [isNameStart, Bool.or_eq_true, Bool.or_eq_true, letter, beq_iff_eq, beq_iff_eq, IsNameLetter]
  simp only [or_assoc]

theorem isNamePart_iff (c : Char) : isNamePart c = true ↔ IsNameLetter c ∨ IsDecimalDigit c := by
  rw [isNamePart, Bool.or_eq_true, isNameStart_iff, isDigit_iff]

/-- A run is taken as a whole where no more of it follows. -/
theorem IsRun.first {run after : List Char} (isRun : IsRun run)
    (ends : ∀ d ∈ after.head?, ¬ (IsNameLetter d ∨ IsDecimalDigit d)) :
    ∃ c tail, run = c :: tail ∧
      Lexeme.first c (tail ++ after) = ⟨wordKind run, run, after⟩ := by
  obtain ⟨c, tail, rfl, start, parts⟩ := isRun
  refine ⟨c, tail, rfl, ?_⟩
  apply Lexeme.first_run
  · exact (isNameStart_iff c).mpr start
  · intro d member
    exact (isNamePart_iff d).mpr (parts d member)
  · intro d head
    rw [Bool.eq_false_iff, Ne, isNamePart_iff]
    exact ends d head

/-- A text literal ends at its first quote that is not behind a backslash. -/
theorem Enclosed.splitText {inner : List Char} (enclosed : Enclosed inner) (rest : List Char) :
    splitText (inner ++ '\'' :: rest) = some (inner ++ ['\''], rest) := by
  induction enclosed with
  | nil => rfl
  | @plain c cs noQuote noEscape _ ih =>
    rw [List.cons_append, RecordQuery.splitText, ih]
    · rfl
    · exact noQuote
    · intro d ds same
      exact absurd same noEscape
  | escaped c _ ih =>
    rw [List.cons_append, List.cons_append, RecordQuery.splitText, ih]
    rfl

/-- What comes before the end of a text literal is enclosed by its quotes. -/
theorem exists_enclosed {cs text rest : List Char} (closed : splitText cs = some (text, rest)) :
    ∃ inner, text = inner ++ ['\''] ∧ Enclosed inner := by
  fun_induction splitText cs generalizing text rest with
  | case1 => cases closed
  | case2 cs =>
    cases closed
    exact ⟨[], rfl, .nil⟩
  | case3 c cs ih =>
    simp only [Option.map_eq_some_iff, Prod.exists, Prod.mk.injEq] at closed
    obtain ⟨t, r, more, rfl, rfl⟩ := closed
    obtain ⟨inner, rfl, enclosed⟩ := ih more
    exact ⟨'\\' :: c :: inner, rfl, enclosed.escaped c⟩
  | case4 c cs noQuote noEscape ih =>
    simp only [Option.map_eq_some_iff, Prod.exists, Prod.mk.injEq] at closed
    obtain ⟨t, r, more, rfl, rfl⟩ := closed
    obtain ⟨inner, rfl, enclosed⟩ := ih more
    refine ⟨c :: inner, rfl, .plain noQuote ?_ enclosed⟩
    -- a backslash with a character after it is no plain one, and one without is the end of the query
    rintro rfl
    cases cs with
    | nil => cases more
    | cons d ds => exact noEscape d ds rfl rfl

namespace TokenKind

theorem Forms.kind_ne {k : TokenKind} {text : List Char} (forms : k.Forms text) :
    k ≠ .unclosedText ∧ k ≠ .illegal := by
  cases forms <;> simp

/-- A run is a keyword or a name. -/
theorem forms_wordKind {run : List Char} (isRun : IsRun run) : (wordKind run).Forms run := by
  by_cases spelled : ∃ k : Keyword, run.map Char.toLower = k.spelling.toList
  · obtain ⟨k, same⟩ := spelled
    rw [wordKind_eq_keyword_iff.mpr same]
    exact .keyword k isRun same
  · have other := not_exists.mp spelled
    rw [wordKind_eq_name_iff.mpr other]
    exact .name isRun other

/-- A token of the language is read as one if it stands alone. -/
theorem Forms.alone {k : TokenKind} {text : List Char} (forms : k.Forms text) :
    ∃ c tail, text = c :: tail ∧ Lexeme.first c tail = ⟨k, c :: tail, []⟩ := by
  have ends : ∀ d ∈ ([] : List Char).head?, ¬ (IsNameLetter d ∨ IsDecimalDigit d) := by simp
  cases forms with
  | openParen => exact ⟨'(', [], rfl, rfl⟩
  | closeParen => exact ⟨')', [], rfl, rfl⟩
  | comma => exact ⟨',', [], rfl, rfl⟩
  | relation r =>
    obtain ⟨_, c, tail, text, _, taken⟩ := Word.isLexeme_relation r
    exact ⟨c, tail, text, taken⟩
  | keyword k run same =>
    obtain ⟨c, tail, rfl, taken⟩ := run.first ends
    rw [List.append_nil, wordKind_eq_keyword_iff.mpr same] at taken
    exact ⟨c, tail, rfl, taken⟩
  | name run other =>
    obtain ⟨c, tail, rfl, taken⟩ := run.first ends
    rw [List.append_nil, wordKind_eq_name_iff.mpr other] at taken
    exact ⟨c, tail, rfl, taken⟩
  | @integer c cs digits =>
    have digits : ∀ d ∈ c :: cs, d.isDigit = true := by
      intro d member
      exact (isDigit_iff d).mpr (digits d member)
    obtain ⟨digit, others⟩ := List.forall_mem_cons.mp digits
    refine ⟨c, cs, rfl, ?_⟩
    rw [Lexeme.first_digit digit]
    exact Word.numeral_of_isDigit c others
  | @negative c cs digits =>
    have digits : ∀ d ∈ c :: cs, d.isDigit = true := by
      intro d member
      exact (isDigit_iff d).mpr (digits d member)
    have starts : (c :: cs).head?.any Char.isDigit = true := digits c List.mem_cons_self
    refine ⟨'-', c :: cs, rfl, ?_⟩
    rw [Lexeme.first_sign_of_digit starts]
    exact Word.numeral_of_isDigit '-' digits
  | @text cs enclosed =>
    refine ⟨'\'', cs ++ ['\''], rfl, ?_⟩
    show Lexeme.quoted _ = _
    rw [Lexeme.quoted, enclosed.splitText []]

/-- What is read is a token of the language, an unclosed text or an illegal character. -/
theorem forms_first (c : Char) (cs : List Char) :
    (Lexeme.first c cs).kind.Forms (Lexeme.first c cs).text ∨
      (Lexeme.first c cs).kind = .unclosedText ∧ c = '\'' ∧ (Lexeme.first c cs).text = c :: cs ∨
      (Lexeme.first c cs).kind = .illegal ∧ c ≠ '\'' ∧ (Lexeme.first c cs).text = [c] := by
  have digits : ∀ d ∈ cs.takeWhile Char.isDigit, IsDecimalDigit d := by
    intro d member
    exact (isDigit_iff d).mp (List.all_eq_true.mp List.all_takeWhile d member)
  rcases Lexeme.start_cases c with named | digit | rfl | rfl | isMark
  · left
    rw [Lexeme.first_name named, Lexeme.word]
    apply forms_wordKind
    refine ⟨c, _, rfl, (isNameStart_iff c).mp named, ?_⟩
    intro d member
    exact (isNamePart_iff d).mp (List.all_eq_true.mp List.all_takeWhile d member)
  · left
    rw [Lexeme.first_digit digit, Lexeme.numeral]
    exact .integer (List.forall_mem_cons.mpr ⟨(isDigit_iff c).mp digit, digits⟩)
  · cases after : cs.head?.any Char.isDigit with
    | true =>
      left
      rw [Lexeme.first_sign_of_digit after, Lexeme.numeral]
      cases cs with
      | nil => cases after
      | cons d ds =>
        have digit : d.isDigit = true := after
        rw [List.takeWhile_cons_of_pos digit] at digits ⊢
        exact .negative digits
    | false =>
      rw [Lexeme.first_sign after]
      right; right
      exact ⟨rfl, by decide, rfl⟩
  · have quote : Lexeme.first '\'' cs = Lexeme.quoted cs := rfl
    rw [quote, Lexeme.quoted]
    split
    · next text rest closed =>
      left
      obtain ⟨inner, rfl, enclosed⟩ := exists_enclosed closed
      exact .text enclosed
    · right; left
      exact ⟨rfl, rfl, rfl⟩
  · rw [Lexeme.first_mark isMark]
    unfold Lexeme.mark
    repeat' split
    · left; subst c; exact .openParen
    · left; subst c; exact .closeParen
    · left; subst c; exact .comma
    · left; subst c; exact .relation .equal
    · left; subst c; exact .relation .atMost
    · left; subst c; exact .relation .unequal
    · left; subst c; exact .relation .less
    · left; subst c; exact .relation .atLeast
    · left; subst c; exact .relation .greater
    · right; right
      exact ⟨rfl, isMark.unquoted, rfl⟩

end TokenKind

namespace Lexeme

variable {c : Char} {tail : List Char} {k : TokenKind}

theorem takeWhile_append_of_self {p : Char → Bool} (run : tail.takeWhile p = tail)
    (more : List Char) : (tail ++ more).takeWhile p = tail ++ more.takeWhile p := by
  apply List.takeWhile_append_of_pos
  intro d member
  rw [← run] at member
  exact List.all_eq_true.mp List.all_takeWhile d member

/-- A numeral that goes on is read further. -/
theorem prefix_numeral (alone : numeral c tail = ⟨k, c :: tail, []⟩) (more : List Char) :
    c :: tail <+: (numeral c (tail ++ more)).text := by
  simp only [numeral, mk.injEq, List.cons.injEq, true_and] at alone
  rw [numeral, takeWhile_append_of_self alone.2.1]
  exact List.prefix_append (c :: tail) _

/-- Where a token stands, what is read begins with it. -/
theorem prefix_first (alone : first c tail = ⟨k, c :: tail, []⟩) (closed : k ≠ .unclosedText)
    (more : List Char) : c :: tail <+: (first c (tail ++ more)).text := by
  rcases start_cases c with named | digit | rfl | rfl | isMark
  · rw [first_name named] at alone ⊢
    simp only [word, mk.injEq, List.cons.injEq, true_and] at alone
    rw [word, takeWhile_append_of_self alone.2.1]
    exact List.prefix_append (c :: tail) _
  · rw [first_digit digit] at alone ⊢
    exact prefix_numeral alone more
  · cases after : tail.head?.any Char.isDigit with
    | true =>
      rw [first_sign_of_digit after] at alone
      rw [first_sign_of_digit (head?_of_numeral alone after more)]
      exact prefix_numeral alone more
    | false =>
      rw [first_sign after] at alone
      cases alone
      obtain ⟨l, longer, rest, taken, _⟩ := exists_first '-' more
      rw [List.nil_append, taken]
      exact List.prefix_append ['-'] longer
  · have quote : ∀ cs, first '\'' cs = quoted cs := fun _ => rfl
    rw [quote] at alone ⊢
    have same := congrArg Lexeme.text (quoted_of_closed alone closed more)
    exact same ▸ List.prefix_rfl
  · cases tail with
    | nil =>
      obtain ⟨l, longer, rest, taken, _⟩ := exists_first c more
      rw [List.nil_append, taken]
      exact List.prefix_append [c] longer
    | cons d tail =>
      -- a mark of two characters ends whatever comes next
      rw [first_mark isMark] at alone ⊢
      have same : mark c (d :: tail ++ more) = ⟨k, c :: d :: tail, more⟩ := by
        apply mark_of_apart alone
        · rintro _ ⟨⟩
        · rintro _ ⟨⟩
      exact (congrArg Lexeme.text same) ▸ List.prefix_rfl

/-- Where a token stands the query is not an unclosed text. -/
theorem closed_first (alone : first c tail = ⟨k, c :: tail, []⟩) (closed : k ≠ .unclosedText)
    (more : List Char) : (first c (tail ++ more)).kind ≠ .unclosedText := by
  intro kind
  rcases TokenKind.forms_first c (tail ++ more) with forms | ⟨_, rfl, _⟩ | ⟨illegal, _⟩
  · exact forms.kind_ne.1 kind
  · have quote : ∀ cs, first '\'' cs = quoted cs := fun _ => rfl
    rw [quote] at alone kind
    rw [quoted_of_closed alone closed more] at kind
    exact closed kind
  · rw [illegal] at kind
    cases kind

/-- Each token that stands at the beginning of a text is what is read there or is shorter. -/
theorem shorter_or_first {cs other : List Char} {l : TokenKind} (here : other <+: c :: cs)
    (forms : l.Forms other) : (first c cs).kind ≠ .unclosedText ∧
      (other.length < (first c cs).text.length ∨
        other = (first c cs).text ∧ l = (first c cs).kind) := by
  obtain ⟨d, tail, rfl, alone⟩ := forms.alone
  obtain ⟨rfl, more, rfl⟩ := List.cons_prefix_cons.mp here
  have within := prefix_first alone forms.kind_ne.1 more
  have closed := closed_first alone forms.kind_ne.1 more
  refine ⟨closed, ?_⟩
  rcases Nat.lt_or_eq_of_le within.length_le with shorter | same
  · exact .inl shorter
  · right
    have text := within.eq_of_length same
    refine ⟨text, ?_⟩
    -- the same text alone is read as one token
    obtain ⟨k, longer, rest, taken, _⟩ := exists_first d (tail ++ more)
    rw [taken] at text closed ⊢
    cases text
    have again := first_of_apart taken closed (apart_nil _)
    rw [List.append_nil, alone] at again
    exact congrArg Lexeme.kind again

/-- What is read is the longest token. -/
theorem longestAt_first (c : Char) (cs : List Char) :
    LongestAt (c :: cs) (first c cs).kind (first c cs).text := by
  rcases TokenKind.forms_first c cs with forms | ⟨kind, quote, text⟩ | ⟨kind, noQuote, text⟩
  · refine .token ?_ forms ?_
    · exact ⟨_, text_append_rest_first c cs⟩
    · intro l other here otherForms
      exact (shorter_or_first here otherForms).2
  · rw [kind, text]
    refine .unclosed ?_ ?_
    · rw [quote]
      rfl
    · intro l other here forms
      exact (shorter_or_first here forms).1 kind
  · rw [kind, text]
    refine .illegal rfl noQuote ?_
    intro l other here forms
    rcases (shorter_or_first here forms).2 with shorter | ⟨_, same⟩
    · -- no token is empty
      obtain ⟨d, tail, rfl, _⟩ := forms.alone
      rw [text, List.length_cons, List.length_singleton] at shorter
      omega
    · rw [kind] at same
      exact forms.kind_ne.2 same

end Lexeme

/-- At each place of a query the blanks are skipped, and the next token is the longest one that stands
    after them. It starts there, and the next place is where it ends. A run of name characters that no
    other one follows is one token: the keyword that it is in some letter case, or else a name. -/
theorem Cursor.next_longest (p : Cursor) :
    ∃ blanks rest after, p.rest = blanks ++ rest ∧ (∀ c ∈ blanks, Text.isBlank c = true) ∧
      (∀ c ∈ rest.head?, Text.isBlank c = false) ∧
      p.next.1.offset = p.offset + blanks.length ∧
      p.next.1.text.toList ++ after = rest ∧
      p.next.2 = ⟨after, p.next.1.offset + p.next.1.text.length⟩ ∧
      LongestAt rest p.next.1.kind p.next.1.text.toList ∧
      ∀ run others, rest = run ++ others → IsRun run →
        (∀ d ∈ others.head?, ¬ (IsNameLetter d ∨ IsDecimalDigit d)) →
        p.next.1.text.toList = run ∧ after = others ∧
          (∀ k : Keyword, p.next.1.kind = .keyword k ↔ run.map Char.toLower = k.spelling.toList) ∧
          (p.next.1.kind = .name ↔ ∀ k : Keyword, run.map Char.toLower ≠ k.spelling.toList) := by
  obtain ⟨text, n⟩ := p
  obtain ⟨gap, rest, rfl, blanks, ends⟩ := exists_gap text
  rw [next_skip blanks]
  cases rest with
  | nil =>
    refine ⟨gap, [], [], rfl, blanks, ends, rfl, rfl, rfl, .finish rfl, ?_⟩
    rintro run others whole ⟨c, cs, rfl, _⟩ _
    cases whole
  | cons c cs =>
    have visible := ends c rfl
    rw [next_cons visible]
    refine ⟨gap, c :: cs, (Lexeme.first c cs).rest, rfl, blanks, ends, rfl, ?_, ?_, ?_, ?_⟩
    · rw [String.toList_ofList]
      exact Lexeme.text_append_rest_first c cs
    · rw [String.length_ofList]
    · rw [String.toList_ofList]
      exact Lexeme.longestAt_first c cs
    · intro run others split isRun noMore
      obtain ⟨d, tail, shape, taken⟩ := isRun.first noMore
      rw [shape, List.cons_append] at split
      obtain ⟨rfl, rfl⟩ := List.cons.inj split
      rw [taken, String.toList_ofList]
      exact ⟨rfl, rfl, fun k => wordKind_eq_keyword_iff, wordKind_eq_name_iff⟩

end RecordQuery
