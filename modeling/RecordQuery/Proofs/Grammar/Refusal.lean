import RecordQuery.Proofs.Token.Scans
import RecordQuery.Reader

/-!
# Refused tokens

Why a reader refuses a token: the token cannot stand there, it is an integer out of range, or it
opens one group too many. `Reader.refusal_of_step` says which error stands for which reason.
-/

namespace RecordQuery

/-- A token that cannot stand where it does is reported with its kind and its offset. -/
theorem QueryError.misplaced_of_unexpected {t : Token} {kind : TokenKind}
    (fault : (unexpected t).fault = .misplaced kind) :
    t.kind = kind ∧ (unexpected t).offset = t.offset := by
  unfold unexpected at fault ⊢
  split at fault
  · cases fault
  · cases fault
  · cases fault
    exact ⟨rfl, rfl⟩

/-- The end of a query is reported for its own token and for an unclosed text. -/
theorem QueryError.kind_of_endsTooEarly {t : Token} (fault : (unexpected t).fault = .endsTooEarly) :
    t.kind = .finish ∨ t.kind = .unclosedText := by
  unfold unexpected at fault
  split at fault
  · next kind => exact .inl kind
  · next kind => exact .inr kind
  · cases fault

/-- A token of a query that cannot stand where it does is reported as such, but for an unclosed text,
    which stands for the end of the query. -/
theorem QueryError.unexpected_cases {query : String} {t : Token} (member : t ∈ tokenize query) :
    unexpected t = ⟨query.length, .endsTooEarly⟩ ∨
      unexpected t = ⟨t.offset, .misplaced t.kind⟩ ∧ t.kind ≠ .finish ∧ t.kind ≠ .unclosedText := by
  have scans := scans_tokenize query
  unfold unexpected
  split
  · next finish => exact absurd finish (scans.kind_ne_finish t member)
  · next unclosed =>
    have ends := scans.end_of_unclosed t member unclosed
    rw [Nat.zero_add, String.length_toList] at ends
    rw [ends]
    exact .inl rfl
  · next closed => exact .inr ⟨rfl, scans.kind_ne_finish t member, closed⟩

namespace Reader

variable {r : Reader} {t : Token} {e : QueryError}

/-- The error with which a reader refuses a token, and why. -/
inductive Refusal (r : Reader) (t : Token) : QueryError → Prop
  | unexpected : Refusal r t (.unexpected t)
  | outOfRange (kind : t.kind = .integer) (value : Literal.decodeInteger t.text = none) :
      Refusal r t ⟨t.offset, .integerOutOfRange t.text⟩
  | tooDeep (await : r.awaiting = .operand) (kind : t.kind = .openParen)
      (full : maxNesting ≤ r.outer.length) : Refusal r t ⟨t.offset, .nestedTooDeep maxNesting⟩

theorem refusal_of_literal (refused : t.literal = .error e) : r.Refusal t e := by
  unfold Token.literal at refused
  split at refused
  · next kind =>
    split at refused
    · cases refused
    · next value =>
      cases refused
      exact .outOfRange kind value
  · cases refused
  · cases refused
    exact .unexpected

/-- A token that has to be a constant is refused as a constant, or for what the constant is. -/
theorem refusal_of_bind {f : Literal → Except QueryError Reader}
    (refused : (do let l ← t.literal; f l) = .error e)
    (other : ∀ l, f l = .error e → r.Refusal t e) : r.Refusal t e := by
  cases read : t.literal with
  | error e' =>
    rw [read] at refused
    cases refused
    exact refusal_of_literal read
  | ok l =>
    rw [read] at refused
    exact other l refused

theorem refusal_of_connect {q : Reader} (refused : q.connect t = .error e) : r.Refusal t e := by
  unfold connect at refused
  split at refused
  · cases refused
  · cases refused
  · split at refused
    · cases refused
    · cases refused
      exact .unexpected
  · cases refused
    exact .unexpected

theorem refusal_of_choiceDone {q : Reader} {left : Call Nat} {choices : Option Choices}
    (refused : q.choiceDone left choices t = .error e) : r.Refusal t e := by
  refine refusal_of_bind refused fun l others => ?_
  cases choices with
  | none => cases others
  | some choices =>
    simp only at others
    split at others
    · cases others
    · cases others
      exact .unexpected

/-- A reader refuses a token for one of these reasons only. -/
theorem refusal_of_step (refused : r.step t = .error e) : r.Refusal t e := by
  cases await : r.awaiting with
  | operand =>
    simp only [step, await] at refused
    split at refused
    · cases refused
    · next opened =>
      split at refused
      · cases refused
      · next full =>
        cases refused
        exact .tooDeep await opened (Nat.le_of_not_lt full)
    · cases refused
    · cases refused
      exact .unexpected
  | callArgument role name offset =>
    simp only [step, await] at refused
    exact refusal_of_bind refused fun l others => by cases others
  | comparand left relation =>
    simp only [step, await] at refused
    split at refused
    · cases refused
    · exact refusal_of_bind refused fun l others => by cases others
  | choice left choices =>
    simp only [step, await] at refused
    exact refusal_of_choiceDone refused
  | afterCall c =>
    simp only [step, await] at refused
    split at refused
    · cases refused
    · cases refused
    · exact refusal_of_connect refused
  | connective =>
    simp only [step, await] at refused
    exact refusal_of_connect refused
  | callOpening role name offset | callClosing role name offset argument | collection left
  | afterChoice left choices =>
    -- every token but one or two is misplaced here
    simp only [step, await] at refused
    split at refused <;> cases refused
    exact .unexpected

/-- A token that is reported as misplaced is reported with its kind and its offset. -/
theorem misplaced_of_step {kind : TokenKind} (refused : r.step t = .error e)
    (fault : e.fault = .misplaced kind) : t.kind = kind ∧ t.offset = e.offset := by
  cases refusal_of_step refused with
  | unexpected =>
    obtain ⟨same, offset⟩ := QueryError.misplaced_of_unexpected fault
    exact ⟨same, offset.symm⟩
  | outOfRange | tooDeep => cases fault

/-- The query ends too early at its end, or where an unclosed text takes the rest of it. -/
theorem endsTooEarly_of_step (refused : r.step t = .error e) (fault : e.fault = .endsTooEarly) :
    t.kind = .finish ∨ t.kind = .unclosedText := by
  cases refusal_of_step refused with
  | unexpected => exact QueryError.kind_of_endsTooEarly fault
  | outOfRange | tooDeep => cases fault

/-- The query can only end too early. -/
theorem eq_of_finish {length : Nat} (refused : r.finish length = .error e) :
    e = ⟨length, .endsTooEarly⟩ := by
  unfold finish at refused
  split at refused <;> cases refused
  rfl

/-- No place in a query takes an unclosed text. -/
theorem refuses_unclosedText (unclosed : t.kind = .unclosedText) (s : Reader) : r.step t ≠ .ok s := by
  have noLiteral : t.literal = .error (.unexpected t) := by
    simp only [Token.literal, unclosed]
  have noConnective : ∀ q : Reader, q.connect t = .error (.unexpected t) := by
    intro q
    simp only [connect, unclosed]
  intro taken
  unfold step at taken
  split at taken <;>
    simp only [unclosed, noLiteral, noConnective, choiceDone, bind, Except.bind] at taken <;>
    cases taken

/-- What has been read to its end has no unclosed text. -/
theorem closed_of_run {length : Nat} {ts : List Token} {w : Written}
    (complete : r.run length ts = .complete w) : ∀ t ∈ ts, t.kind ≠ .unclosedText := by
  induction ts generalizing r with
  | nil => exact List.forall_mem_nil _
  | cons t ts ih =>
    rw [run] at complete
    split at complete
    · next s step =>
      exact List.forall_mem_cons.mpr ⟨fun unclosed => refuses_unclosedText unclosed s step, ih complete⟩
    · cases complete

end Reader

end RecordQuery
