import RecordQuery.Proofs.Grammar.Completeness
import RecordQuery.Proofs.Grammar.Refusal
import RecordQuery.Proofs.Grammar.Soundness
import RecordQuery.Proofs.Token.Vocabulary

/-!
# Completing a query

Wherever a reader is between two tokens, a few words take it to the end of a query: those that
complete the comparison, and a parenthesis for each open group (`Reader.completes`). So tokens that a
reader has taken are the beginning of a query of the grammar, and with the token that it refuses
they are the beginning of none (`Reader.Takes.completable`, `Reader.Takes.not_viable`).
-/

namespace RecordQuery

open Grammar

/-- Tokens that more tokens, whatever they are, make a condition of the grammar. -/
def Grammar.Viable (ts : List Token) : Prop :=
  ∃ us w, Derives .condition maxNesting (ts ++ us) w

/-- Tokens that the tokens of some text make a condition of the grammar. -/
def Grammar.Completable (ts : List Token) : Prop :=
  ∃ more w, Derives .condition maxNesting (ts ++ tokenize more) w

/-- A constant of a type. -/
def LiteralType.sample : LiteralType → Literal
  | .integer => .integer 1
  | .text => .text ""

/-- The words that complete the comparison that a reader is in. -/
def Awaiting.completion : Awaiting → List Word
  | .operand => [.name "a", .openParen, .literal (.integer 1), .closeParen]
  | .callOpening _ _ _ => [.openParen, .literal (.integer 1), .closeParen]
  | .callArgument _ _ _ => [.literal (.integer 1), .closeParen]
  | .callClosing _ _ _ _ => [.closeParen]
  | .afterCall _ => []
  | .comparand _ _ => [.literal (.integer 1)]
  | .collection _ => [.openParen, .literal (.integer 1), .closeParen]
  | .choice _ none => [.literal (.integer 1), .closeParen]
  | .choice _ (some choices) => [.literal choices.type.sample, .closeParen]
  | .afterChoice _ _ => [.closeParen]
  | .connective => []

theorem Awaiting.isLexeme_of_mem_completion (a : Awaiting) : ∀ w ∈ a.completion, w.IsLexeme := by
  have named : IsName "a" := by decide
  unfold completion
  split <;> simp only [List.forall_mem_cons, List.not_mem_nil, false_implies, implies_true, and_true,
    Word.isLexeme_name named, Word.isLexeme_openParen, Word.isLexeme_closeParen,
    Word.isLexeme_literal]

namespace Reader

/-- The words that close the groups that are open. -/
def closings (r : Reader) : List Word :=
  List.replicate r.outer.length .closeParen

/-- The words that take a reader to the end of a query. -/
def completion (r : Reader) : List Word :=
  r.awaiting.completion ++ r.closings

theorem isLexeme_of_mem_completion (r : Reader) : ∀ w ∈ r.completion, w.IsLexeme := by
  intro w member
  rcases List.mem_append.mp member with member | member
  · exact Awaiting.isLexeme_of_mem_completion r.awaiting w member
  · rw [(List.mem_replicate.mp member).2]
    exact Word.isLexeme_closeParen

/-- Any tokens with these words take the reader to the end of a query. -/
def Completes (r : Reader) (ws : List Word) : Prop :=
  ∀ ts : List Token, ts.map Token.word = ws → ∀ length, ∃ w, r.run length ts = .complete w

variable {r s : Reader} {ts us : List Token} {t : Token} {x : Word} {ws : List Word}

/-- A reader is completed by a token and by what completes the reader after it. -/
theorem Completes.cons (step : ∀ t : Token, t.word = x → ∃ s, r.step t = .ok s ∧ s.Completes ws) :
    r.Completes (x :: ws) := by
  intro ts words length
  cases ts with
  | nil => cases words
  | cons t ts =>
    obtain ⟨word, others⟩ := List.cons.inj words
    obtain ⟨s, taken, completes⟩ := step t word
    obtain ⟨w, complete⟩ := completes ts others length
    exact ⟨w, by rw [run_of_step taken, complete]⟩

theorem completes_connective (await : r.awaiting = .connective) : r.Completes r.closings := by
  unfold closings
  generalize nested : r.outer = outer
  induction outer generalizing r with
  | nil =>
    intro ts words length
    cases List.map_eq_nil_iff.mp words
    exact ⟨r.level.condition, by rw [run, finish, await, nested]⟩
  | cons l outer ih =>
    refine .cons fun t word => ⟨{ r with level := l, outer := outer }.atomDone r.level.condition, ?_, ?_⟩
    · have closed : t.kind = .closeParen := congrArg Word.kind word
      simp only [step, await, connect, closed, nested]
    · exact ih rfl rfl

/-- A comparison may end after its first call. -/
theorem completes_afterCall {c : Call Nat} (await : r.awaiting = .afterCall c) :
    r.Completes r.closings := by
  intro ts words length
  have closed : ∀ t ∈ ts, t.kind = .closeParen := by
    intro t member
    have word := List.mem_map_of_mem (f := Token.word) member
    rw [words] at word
    exact congrArg Word.kind (List.mem_replicate.mp word).2
  have same : r = { r with awaiting := .afterCall c } := by rw [← await]
  obtain ⟨w, complete⟩ := completes_connective (r := r.atomDone (.test (.call c))) rfl ts words length
  refine ⟨w, ?_⟩
  rw [same, run_afterCall r c length (endsComparison_of_closed closed), complete]

/-- A call may be the last of a query, whatever it is read for. -/
theorem completes_callDone (r : Reader) (role : CallRole) (c : Call Nat) :
    (r.callDone role c).Completes r.closings := by
  cases role with
  | leading => exact completes_afterCall (r := r.callDone .leading c) rfl
  | compared left relation => exact completes_connective (r := r.callDone (.compared left relation) c) rfl
  | searched left => exact completes_connective (r := r.callDone (.searched left) c) rfl

theorem completes_callClosing {role : CallRole} {name : String} {offset : Nat} {argument : Literal}
    (await : r.awaiting = .callClosing role name offset argument) :
    r.Completes (.closeParen :: r.closings) := by
  refine .cons fun t word => ⟨_, ?_, completes_callDone r role ⟨name, argument, offset, false⟩⟩
  have closed : t.kind = .closeParen := congrArg Word.kind word
  simp only [step, await, closed]

theorem completes_callArgument {role : CallRole} {name : String} {offset : Nat}
    (await : r.awaiting = .callArgument role name offset) :
    r.Completes (.literal (.integer 1) :: .closeParen :: r.closings) := by
  refine .cons fun t word =>
    ⟨{ r with awaiting := .callClosing role name offset (.integer 1) }, ?_, completes_callClosing rfl⟩
  simp only [step, await, Word.literal_of_word word]
  rfl

theorem completes_callOpening {role : CallRole} {name : String} {offset : Nat}
    (await : r.awaiting = .callOpening role name offset) :
    r.Completes (.openParen :: .literal (.integer 1) :: .closeParen :: r.closings) := by
  refine .cons fun t word =>
    ⟨{ r with awaiting := .callArgument role name offset }, ?_, completes_callArgument rfl⟩
  have opened : t.kind = .openParen := congrArg Word.kind word
  simp only [step, await, opened]

theorem completes_operand (await : r.awaiting = .operand) :
    r.Completes (.name "a" :: .openParen :: .literal (.integer 1) :: .closeParen :: r.closings) := by
  refine .cons fun t word =>
    ⟨{ r with awaiting := .callOpening .leading t.text t.offset }, ?_, completes_callOpening rfl⟩
  have named : t.kind = .name := congrArg Word.kind word
  simp only [step, await, named]

theorem completes_afterChoice {left : Call Nat} {choices : Choices}
    (await : r.awaiting = .afterChoice left choices) : r.Completes (.closeParen :: r.closings) := by
  refine .cons fun t word =>
    ⟨r.atomDone (.test (.member left choices false)), ?_, completes_connective rfl⟩
  have closed : t.kind = .closeParen := congrArg Word.kind word
  simp only [step, await, closed]

/-- A list goes on with any constant of its type. -/
theorem completes_choice {left : Call Nat} {choices : Option Choices} {l : Literal}
    (await : r.awaiting = .choice left choices) (type : ∀ cs ∈ choices, l.type = cs.type) :
    r.Completes (.literal l :: .closeParen :: r.closings) := by
  cases choices with
  | none =>
    refine .cons fun t word =>
      ⟨{ r with awaiting := .afterChoice left (.singleton l) }, ?_, completes_afterChoice rfl⟩
    simp only [step, await, choiceDone, Word.literal_of_word word]
    rfl
  | some choices =>
    obtain ⟨longer, pushed⟩ := Option.isSome_iff_exists.mp (Choices.push?_isSome_iff.mpr (type _ rfl))
    refine .cons fun t word =>
      ⟨{ r with awaiting := .afterChoice left longer }, ?_, completes_afterChoice rfl⟩
    simp only [step, await, choiceDone, Word.literal_of_word word, bind, Except.bind, pushed]
    rfl

theorem completes_collection {left : Call Nat} (await : r.awaiting = .collection left) :
    r.Completes (.openParen :: .literal (.integer 1) :: .closeParen :: r.closings) := by
  refine .cons fun t word => ⟨{ r with awaiting := .choice left none }, ?_, completes_choice rfl (by simp)⟩
  have opened : t.kind = .openParen := congrArg Word.kind word
  simp only [step, await, opened]

theorem completes_comparand {left : Call Nat} {relation : Relation}
    (await : r.awaiting = .comparand left relation) :
    r.Completes (.literal (.integer 1) :: r.closings) := by
  refine .cons fun t word =>
    ⟨r.atomDone (.test (.compare left relation (.integer 1))), ?_, completes_connective rfl⟩
  have number : t.kind = .integer := congrArg Word.kind word
  simp only [step, await, number, Word.literal_of_word word]
  rfl

/-- A reader is taken to the end of a query by its completion. -/
theorem completes (r : Reader) : r.Completes r.completion := by
  unfold completion
  generalize await : r.awaiting = a
  cases a with
  | operand => exact completes_operand await
  | callOpening role name offset => exact completes_callOpening await
  | callArgument role name offset => exact completes_callArgument await
  | callClosing role name offset argument => exact completes_callClosing await
  | afterCall c => exact completes_afterCall await
  | comparand left relation => exact completes_comparand await
  | collection left => exact completes_collection await
  | choice left choices =>
    cases choices with
    | none => exact completes_choice await (by simp)
    | some choices =>
      refine completes_choice await ?_
      rintro cs ⟨⟩
      cases choices <;> rfl
  | afterChoice left choices => exact completes_afterChoice await
  | connective => exact completes_connective await

/-- `Takes r ts s`: the reader `r` takes the tokens `ts` one after the other, and is `s` then. -/
inductive Takes : Reader → List Token → Reader → Prop
  | nil {r : Reader} : Takes r [] r
  | cons {r q s : Reader} {t : Token} {ts : List Token} (step : r.step t = .ok q)
      (others : Takes q ts s) : Takes r (t :: ts) s

namespace Takes

theorem run (takes : Takes r ts s) (length : Nat) (us : List Token) :
    r.run length (ts ++ us) = s.run length us := by
  induction takes with
  | nil => rfl
  | cons step _ ih => rw [List.cons_append, run_of_step step, ih]

/-- What every token keeps, with the token added to those before it, all of them keep. -/
theorem preserves {P : Reader → List Token → Prop} (takes : Takes r ts s)
    (keeps : ∀ {r s : Reader} {us : List Token} {t : Token}, P r us → r.step t = .ok s →
      P s (us ++ [t])) (before : P r us) : P s (us ++ ts) := by
  induction takes generalizing us with
  | nil => rwa [List.append_nil]
  | cons step _ ih =>
    have longer := ih (keeps before step)
    rwa [List.append_assoc, List.singleton_append] at longer

theorem covers (takes : Takes r ts s) (before : r.Covers us) : s.Covers (us ++ ts) :=
  takes.preserves covers_step before

/-- What a reader has taken has no unclosed text. -/
theorem closed (takes : Takes r ts s) : ∀ t ∈ ts, t.kind ≠ .unclosedText := by
  induction takes with
  | nil => exact List.forall_mem_nil _
  | cons step _ ih =>
    exact List.forall_mem_cons.mpr ⟨fun unclosed => refuses_unclosedText unclosed _ step, ih⟩

/-- What a reader has taken is derived with any completion of it. -/
theorem derives (takes : Takes {} ts s) (words : us.map Token.word = s.completion) :
    ∃ w, Derives .condition maxNesting (ts ++ us) w := by
  obtain ⟨w, complete⟩ := s.completes us words 0
  exact ⟨w, derives_of_run (takes.covers covers_empty) complete⟩

/-- What a reader has taken is completed by a text. -/
theorem completable (takes : Takes {} ts s) : Completable ts := by
  let more := String.ofList (Word.spell s.completion)
  have spells : Spells s.completion more.toList := by
    rw [String.toList_ofList]
    exact Word.spells_spell s.isLexeme_of_mem_completion
  exact ⟨more, takes.derives spells.tokenize⟩

/-- With the token that a reader refuses, no query begins. -/
theorem not_viable {e : QueryError} (takes : Takes {} ts s) (refused : s.step t = .error e) :
    ¬ Viable (ts ++ [t]) := by
  rintro ⟨us, w, derived⟩
  have complete := run_of_derives derived 0
  rw [List.append_assoc, takes.run, List.singleton_append, Reader.run, refused] at complete
  cases complete

/-- Whatever follows a refused token, the reading stops there. -/
theorem reading {query : String} {e : QueryError} (takes : Takes {} ts s)
    (refused : s.step t = .error e) (tokens : tokenize query = ts ++ t :: us) :
    Reading.ofQuery query = .stopped s.calls.reverse e := by
  rw [Reading.ofQuery, tokens, takes.run, Reader.run, refused]

end Takes

/-- A reader that stops has met a token that it refuses, or the end of the query too early. -/
theorem takes_of_run {length : Nat} {calls : List (Call Nat)} {e : QueryError}
    (stopped : r.run length ts = .stopped calls e) :
    (∃ before t after s, ts = before ++ t :: after ∧ Takes r before s ∧ s.step t = .error e ∧
      calls = s.calls.reverse) ∨
    (∃ s, Takes r ts s ∧ s.finish length = .error e ∧ calls = s.calls.reverse) := by
  induction ts generalizing r with
  | nil =>
    rw [run] at stopped
    split at stopped
    · cases stopped
    · next e finished =>
      cases stopped
      exact .inr ⟨r, .nil, finished, rfl⟩
  | cons t ts ih =>
    rw [run] at stopped
    split at stopped
    · next q step =>
      rcases ih stopped with ⟨before, u, after, s, rfl, takes, refused, read⟩ | ⟨s, takes, finished, read⟩
      · exact .inl ⟨t :: before, u, after, s, rfl, .cons step takes, refused, read⟩
      · exact .inr ⟨s, .cons step takes, finished, read⟩
    · next e refused =>
      cases stopped
      exact .inl ⟨[], t, ts, r, rfl, .nil, refused, rfl⟩

end Reader

end RecordQuery
