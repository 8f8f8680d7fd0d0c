import RecordQuery.Proofs.Evaluation.Observation

/-!
# Tests of two calls

A test whose right side is a call asks of the right call's answer what the test with that answer written
down, as a literal or as a list, asks of the left call's. Both calls are invoked, the left one first,
before either answer is looked at; then the left answer is looked at first. So a test of two calls has four
ways to fail, in that order: `check_two_calls`.
-/

namespace RecordQuery

variable {α ρ σ ε β : Type}

/-- A literal as the answer of a call. -/
def Literal.answer : Literal → Value
  | integer n => .integer n
  | text s => .text s

/-- The constants of a list as the answer of a call. -/
def Choices.answer : Choices → Value
  | integers ns => .integers ns
  | texts ss => .texts ss

/-- Whether a constant is in a list does not depend on how constants are made of what is listed. -/
theorem Choices.contains_map {τ : Type} [BEq τ] [LawfulBEq τ] {make : τ → Literal}
    (inj : ∀ x y, make x = make y → x = y) (xs : List τ) (x : τ) :
    (xs.map make).contains (make x) = xs.contains x := by
  rw [Bool.eq_iff_iff, List.contains_iff_mem, List.contains_iff_mem, List.mem_map]
  constructor
  · rintro ⟨y, member, same⟩
    rwa [← inj y x same]
  · intro member
    exact ⟨x, member, rfl⟩

/-- The type of an answer that is a literal of this type. -/
def LiteralType.single : LiteralType → ValueType
  | integer => .integer
  | text => .text

/-- The type of an answer that is a list of literals of this type. -/
def LiteralType.listed : LiteralType → ValueType
  | integer => .integers
  | text => .texts

theorem Literal.type_answer (l : Literal) : l.answer.type = l.type.single := by
  cases l <;> rfl

theorem Choices.type_answer (ls : Choices) : ls.answer.type = ls.type.listed := by
  cases ls <;> rfl

theorem LiteralType.single_inj {t u : LiteralType} : t.single = u.single ↔ t = u := by
  cases t <;> cases u <;> decide

theorem LiteralType.listed_inj {t u : LiteralType} : t.listed = u.listed ↔ t = u := by
  cases t <;> cases u <;> decide

/-- An answer of a literal's type is one. -/
theorem Value.exists_literal {v : Value} {t : LiteralType} (single : v.type = t.single) :
    ∃ l : Literal, v = l.answer ∧ l.type = t := by
  cases t <;> cases v <;>
    first | exact ⟨.integer _, rfl, rfl⟩ | exact ⟨.text _, rfl, rfl⟩ | cases single

/-- An answer of the type of a list of literals is one. -/
theorem Value.exists_choices {v : Value} {t : LiteralType} (listed : v.type = t.listed) :
    ∃ ls : Choices, v = ls.answer ∧ ls.type = t := by
  cases t <;> cases v <;>
    first | exact ⟨.integers _, rfl, rfl⟩ | exact ⟨.texts _, rfl, rfl⟩ | cases listed

/-- Whether an answer is a literal shows in its type. -/
theorem Value.answer_cases (v : Value) :
    (∃ l : Literal, v = l.answer) ∨
      (∀ l : Literal, v ≠ l.answer) ∧ ∀ t : LiteralType, v.type ≠ t.single := by
  by_cases single : ∃ t : LiteralType, v.type = t.single
  · obtain ⟨t, single⟩ := single
    obtain ⟨l, literal, _⟩ := v.exists_literal single
    exact .inl ⟨l, literal⟩
  · refine .inr ⟨?_, fun t same => single ⟨t, same⟩⟩
    rintro l rfl
    exact single ⟨l.type, l.type_answer⟩

/-- The state in which an answer has been kept. -/
def EvalState.keep (s : EvalState ρ σ) (v : Value) : EvalState ρ σ :=
  { s with context.last := some v }

namespace Evaluation

/-- Two computations come to the same answer, or both to an error. -/
def Agree (e e' : EStateM.Result (EvalFault ε) (EvalState ρ σ) Bool) : Prop :=
  (∀ b, (∃ s, e = .ok b s) ↔ ∃ s, e' = .ok b s) ∧
    ((∃ fault s, e = .error fault s) ↔ ∃ fault s, e' = .error fault s)

theorem agree_ok (b : Bool) (s s' : EvalState ρ σ) :
    Agree (.ok b s : EStateM.Result (EvalFault ε) _ _) (.ok b s') := by
  refine ⟨fun b' => ⟨?_, ?_⟩, ?_⟩
  · rintro ⟨_, ⟨⟩⟩
    exact ⟨s', rfl⟩
  · rintro ⟨_, ⟨⟩⟩
    exact ⟨s, rfl⟩
  · constructor <;> rintro ⟨_, _, ⟨⟩⟩

theorem agree_error (fault fault' : EvalFault ε) (s s' : EvalState ρ σ) :
    Agree (.error fault s) (.error fault' s') := by
  refine ⟨fun b => ?_, ?_⟩
  · constructor <;> rintro ⟨_, ⟨⟩⟩
  · exact ⟨fun _ => ⟨fault', s', rfl⟩, fun _ => ⟨fault, s, rfl⟩⟩

end Evaluation

open Evaluation

namespace Call

variable {host : Host α ρ σ ε} {s s' : EvalState ρ σ}

theorem invoke_recording_of_ok (c : Call α) {v : Value} (answered : c.invoke host s = .ok v s')
    (log : List (Invocation α)) : c.invoke host.recording ⟨s.context, (s.host, log)⟩ =
      .ok v ⟨s'.context, (s'.host, log ++ [c.invocation])⟩ := by
  revert answered
  rw [invoke_recording, invoke]
  rcases host.run c.accessor c.name c.argument s.context.record s.host with ⟨failure | v, state⟩
  · rintro ⟨⟩
  · rintro ⟨⟩
    rfl

theorem invoke_recording_of_error (c : Call α) {fault : EvalFault ε}
    (failed : c.invoke host s = .error fault s') (log : List (Invocation α)) :
    c.invoke host.recording ⟨s.context, (s.host, log)⟩ =
      .error fault ⟨s'.context, (s'.host, log ++ [c.invocation])⟩ := by
  revert failed
  rw [invoke_recording, invoke]
  rcases host.run c.accessor c.name c.argument s.context.record s.host with ⟨failure | v, state⟩
  · rintro ⟨⟩
    rfl
  · rintro ⟨⟩

variable {left right : Call α} {s₁ s₂ : EvalState ρ σ} {v w : Value}

theorem eval_bind_of_ok {f : Value → Evaluation ρ σ ε β} (answered : left.invoke host s = .ok v s₁) :
    (left.eval host >>= f) s = f v (s₁.keep v) := by
  simp only [eval, Bind.bind, EStateM.bind, answered]
  rfl

theorem eval_bind_of_error {f : Value → Evaluation ρ σ ε β} {fault : EvalFault ε}
    (failed : left.invoke host s = .error fault s₁) : (left.eval host >>= f) s = .error fault s₁ := by
  simp only [eval, Bind.bind, EStateM.bind, failed]

theorem invoke_bind_of_ok {f : Value → Evaluation ρ σ ε β}
    (answered : left.invoke host s = .ok v s₁) : (left.invoke host >>= f) s = f v s₁ := by
  simp only [Bind.bind, EStateM.bind, answered]

theorem invoke_bind_of_error {f : Value → Evaluation ρ σ ε β} {fault : EvalFault ε}
    (failed : left.invoke host s = .error fault s₁) : (left.invoke host >>= f) s = .error fault s₁ := by
  simp only [Bind.bind, EStateM.bind, failed]

end Call

namespace Test

variable {host : Host α ρ σ ε} {left right : Call α} {s s₁ s₂ : EvalState ρ σ} {v w : Value}

/-- The tests of two calls. If the left call answers with a literal, they need an answer of the right one
    whose type follows from that of the literal. -/
inductive OfTwo (left right : Call α) : Test α → (LiteralType → ValueType) → Prop
  | compare (r : Relation) : OfTwo left right (.compareCalls left r right) LiteralType.single
  | member (negated : Bool) : OfTwo left right (.memberCall left right negated) LiteralType.listed

section Single

/-- A comparison with a literal of the answer's type. -/
theorem check_compare {a target : Literal} (answered : left.invoke host s = .ok a.answer s₁)
    (sameType : a.type = target.type) (r : Relation) :
    (compare left r target).check host s = .ok (r.between a target) (s₁.keep a.answer) := by
  rw [check, Call.eval_bind_of_ok answered]
  cases a <;> cases target <;> first | rfl | cases sameType

theorem check_compare_of_type_ne {target : Literal} (answered : left.invoke host s = .ok v s₁)
    (other : v.type ≠ target.type.single) (r : Relation) :
    (compare left r target).check host s =
      .error (.typeMismatch (.type target.type.single) v.type) (s₁.keep v) := by
  rw [check, Call.eval_bind_of_ok answered]
  cases target <;> cases v <;> first | rfl | exact absurd rfl other

/-- A membership in constants of the answer's type. -/
theorem check_member {a : Literal} {choices : Choices}
    (answered : left.invoke host s = .ok a.answer s₁) (sameType : a.type = choices.type)
    (negated : Bool) : (member left choices negated).check host s =
      .ok (choices.contains a != negated) (s₁.keep a.answer) := by
  rw [check, Call.eval_bind_of_ok answered]
  cases a <;> cases choices <;> first | rfl | cases sameType

theorem check_member_of_type_ne {choices : Choices} (answered : left.invoke host s = .ok v s₁)
    (other : v.type ≠ choices.type.single) (negated : Bool) :
    (member left choices negated).check host s =
      .error (.typeMismatch (.type choices.type.single) v.type) (s₁.keep v) := by
  rw [check, Call.eval_bind_of_ok answered]
  cases choices <;> cases v <;> first | rfl | exact absurd rfl other

end Single

section Two

variable {t : Test α} {needed : LiteralType → ValueType}

/-- If the left call fails, the right one is not invoked. -/
theorem OfTwo.check_of_left {fault : EvalFault ε} (two : OfTwo left right t needed)
    (failed : left.invoke host s = .error fault s₁) : t.check host s = .error fault s₁ := by
  cases two with
  | compare r | member negated => rw [check, Call.invoke_bind_of_error failed]

/-- If the right call fails, it does not matter what the left one answered. -/
theorem OfTwo.check_of_right {fault : EvalFault ε} (two : OfTwo left right t needed)
    (first : left.invoke host s = .ok v s₁) (failed : right.invoke host s₁ = .error fault s₂) :
    t.check host s = .error fault s₂ := by
  cases two with
  | compare r | member negated =>
    rw [check, Call.invoke_bind_of_ok first, Call.eval_bind_of_error failed]

/-- If the left answer is no literal, it does not matter what the right one is. -/
theorem OfTwo.check_of_no_literal (two : OfTwo left right t needed)
    (first : left.invoke host s = .ok v s₁) (second : right.invoke host s₁ = .ok w s₂)
    (other : ∀ l : Literal, v ≠ l.answer) :
    t.check host s = .error (.typeMismatch .integerOrText v.type) (s₂.keep w) := by
  have notInteger (n : Int64) : v ≠ .integer n := other (.integer n)
  have notText (x : String) : v ≠ .text x := other (.text x)
  cases two with
  | compare r | member negated =>
    rw [check, Call.invoke_bind_of_ok first, Call.eval_bind_of_ok second]
    cases v with
    | integer n => exact absurd rfl (notInteger n)
    | text x => exact absurd rfl (notText x)
    | _ => rfl

/-- If the left answer is a literal, the right one has to be of the needed type. -/
theorem OfTwo.check_of_type_ne {l : Literal} (two : OfTwo left right t needed)
    (first : left.invoke host s = .ok l.answer s₁) (second : right.invoke host s₁ = .ok w s₂)
    (other : w.type ≠ needed l.type) :
    t.check host s = .error (.typeMismatch (.type (needed l.type)) w.type) (s₂.keep w) := by
  cases two with
  | compare r | member negated =>
    rw [check, Call.invoke_bind_of_ok first, Call.eval_bind_of_ok second]
    cases l <;> cases w <;> first | rfl | exact absurd rfl other

/-- A comparison of two literals of one type. -/
theorem check_compareCalls {l m : Literal} (first : left.invoke host s = .ok l.answer s₁)
    (second : right.invoke host s₁ = .ok m.answer s₂) (sameType : l.type = m.type) (r : Relation) :
    (compareCalls left r right).check host s = .ok (r.between l m) (s₂.keep m.answer) := by
  rw [check, Call.invoke_bind_of_ok first, Call.eval_bind_of_ok second]
  cases l <;> cases m <;> first | rfl | cases sameType

/-- A membership of a literal in a list of its type. -/
theorem check_memberCall {l : Literal} {choices : Choices}
    (first : left.invoke host s = .ok l.answer s₁)
    (second : right.invoke host s₁ = .ok choices.answer s₂) (sameType : l.type = choices.type)
    (negated : Bool) : (memberCall left right negated).check host s =
      .ok (choices.contains l != negated) (s₂.keep choices.answer) := by
  rw [check, Call.invoke_bind_of_ok first, Call.eval_bind_of_ok second]
  cases l with
  | integer n =>
    cases choices with
    | integers ns =>
      rw [Choices.contains, Choices.toList, Choices.contains_map fun _ _ => Literal.integer.inj]
      rfl
    | texts ss => cases sameType
  | text x =>
    cases choices with
    | integers ns => cases sameType
    | texts ss =>
      rw [Choices.contains, Choices.toList, Choices.contains_map fun _ _ => Literal.text.inj]
      rfl

/-- An answer of the needed type is enough. -/
theorem OfTwo.check_of_type {l : Literal} (two : OfTwo left right t needed)
    (first : left.invoke host s = .ok l.answer s₁) (second : right.invoke host s₁ = .ok w s₂)
    (same : w.type = needed l.type) : ∃ b, t.check host s = .ok b (s₂.keep w) := by
  cases two with
  | compare r =>
    obtain ⟨m, rfl, sameType⟩ := w.exists_literal same
    exact ⟨_, check_compareCalls first second sameType.symm r⟩
  | member negated =>
    obtain ⟨ls, rfl, sameType⟩ := w.exists_choices same
    exact ⟨_, check_memberCall first second sameType.symm negated⟩

/-- If the left call answers, the right one is invoked, whatever the answer is. -/
theorem OfTwo.invocations_eq (two : OfTwo left right t needed)
    (first : left.invoke host s = .ok v s₁) :
    (Observation.of (t.check host.recording) s.context s.host).invocations =
      [left.invocation, right.invocation] := by
  have first := left.invoke_recording_of_ok first []
  rw [Observation.of]
  cases second : right.invoke host s₁ with
  | error fault s₂ =>
    rw [two.check_of_right first (right.invoke_recording_of_error second _)]
    rfl
  | ok w s₂ =>
    have second := right.invoke_recording_of_ok second [left.invocation]
    rcases v.answer_cases with ⟨l, rfl⟩ | ⟨noLiteral, _⟩
    · by_cases same : w.type = needed l.type
      · obtain ⟨b, run⟩ := two.check_of_type first second same
        rw [run]
        rfl
      · rw [two.check_of_type_ne first second same]
        rfl
    · rw [two.check_of_no_literal first second noLiteral]
      rfl

end Two

section Written

/-- A comparison of two calls comes to what the one with the right answer written down does. -/
theorem agree_compareCalls {l : Literal} (first : left.invoke host s = .ok v s₁)
    (second : right.invoke host s₁ = .ok l.answer s₂) (r : Relation) :
    Agree ((compareCalls left r right).check host s) ((compare left r l).check host s) := by
  rcases v.answer_cases with ⟨a, rfl⟩ | ⟨noLiteral, otherType⟩
  · by_cases sameType : a.type = l.type
    · rw [check_compareCalls first second sameType, check_compare first sameType]
      exact agree_ok _ _ _
    · have leftType : a.answer.type ≠ l.type.single := by
        rwa [a.type_answer, Ne, LiteralType.single_inj]
      have rightType : l.answer.type ≠ a.type.single := by
        rwa [l.type_answer, Ne, LiteralType.single_inj, eq_comm]
      rw [(OfTwo.compare r).check_of_type_ne first second rightType,
        check_compare_of_type_ne first leftType]
      exact agree_error _ _ _ _
  · rw [(OfTwo.compare r).check_of_no_literal first second noLiteral,
      check_compare_of_type_ne first (otherType _)]
    exact agree_error _ _ _ _

/-- A membership in the list that a call answers comes to what the one in the same list, written down,
    does. -/
theorem agree_memberCall {ls : Choices} (first : left.invoke host s = .ok v s₁)
    (second : right.invoke host s₁ = .ok ls.answer s₂) (negated : Bool) :
    Agree ((memberCall left right negated).check host s) ((member left ls negated).check host s) := by
  rcases v.answer_cases with ⟨a, rfl⟩ | ⟨noLiteral, otherType⟩
  · by_cases sameType : a.type = ls.type
    · rw [check_memberCall first second sameType, check_member first sameType]
      exact agree_ok _ _ _
    · have leftType : a.answer.type ≠ ls.type.single := by
        rwa [a.type_answer, Ne, LiteralType.single_inj]
      have rightType : ls.answer.type ≠ a.type.listed := by
        rwa [ls.type_answer, Ne, LiteralType.listed_inj, eq_comm]
      rw [(OfTwo.member negated).check_of_type_ne first second rightType,
        check_member_of_type_ne first leftType]
      exact agree_error _ _ _ _
  · rw [(OfTwo.member negated).check_of_no_literal first second noLiteral,
      check_member_of_type_ne first (otherType _)]
    exact agree_error _ _ _ _

/-- Other answers of the right call are of no use, whatever the left one is. -/
theorem OfTwo.mismatch {t : Test α} {needed : LiteralType → ValueType}
    (two : OfTwo left right t needed) (first : left.invoke host s = .ok v s₁)
    (second : right.invoke host s₁ = .ok w s₂) (other : ∀ u, w.type ≠ needed u) :
    ∃ wanted found, t.check host s = .error (.typeMismatch wanted found) (s₂.keep w) := by
  rcases v.answer_cases with ⟨a, rfl⟩ | ⟨noLiteral, _⟩
  · exact ⟨_, _, two.check_of_type_ne first second (other a.type)⟩
  · exact ⟨_, _, two.check_of_no_literal first second noLiteral⟩

end Written

/-- Tests of two calls.
    - If both calls answer, a comparison agrees with the one whose right side is the right call's answer,
      a membership with the one in the right call's list, and if the right answer is no literal, or no
      list of literals, the test is a type mismatch.
    - An error of the left call comes first, and then one of the right call. Then the left answer has to
      be a literal, and only then the right one to be of the type that is needed for it.
    - Unless the left call fails, the right one is invoked and its answer is the one that is kept. -/
theorem check_two_calls (host : Host α ρ σ ε) (left right : Call α) (s : EvalState ρ σ) :
    (∀ v w s₁ s₂, left.invoke host s = .ok v s₁ → right.invoke host s₁ = .ok w s₂ →
      ∀ (r : Relation) (negated : Bool),
        (∀ l : Literal, w = l.answer →
          Agree ((compareCalls left r right).check host s) ((compare left r l).check host s)) ∧
        (∀ ls : Choices, w = ls.answer →
          Agree ((memberCall left right negated).check host s)
            ((member left ls negated).check host s)) ∧
        ((∀ l : Literal, w ≠ l.answer) → ∃ wanted found s',
          (compareCalls left r right).check host s = .error (.typeMismatch wanted found) s') ∧
        ((∀ ls : Choices, w ≠ ls.answer) → ∃ wanted found s',
          (memberCall left right negated).check host s = .error (.typeMismatch wanted found) s')) ∧
    ∀ t needed, OfTwo left right t needed →
      (∀ fault s₁, left.invoke host s = .error fault s₁ → t.check host s = .error fault s₁) ∧
      ∀ v s₁, left.invoke host s = .ok v s₁ →
        (Observation.of (t.check host.recording) s.context s.host).invocations =
          [left.invocation, right.invocation] ∧
        (∀ fault s₂, right.invoke host s₁ = .error fault s₂ → t.check host s = .error fault s₂) ∧
        ∀ w s₂, right.invoke host s₁ = .ok w s₂ →
          ((∀ l : Literal, v ≠ l.answer) →
            t.check host s = .error (.typeMismatch .integerOrText v.type) (s₂.keep w)) ∧
          ∀ l : Literal, v = l.answer →
            (w.type ≠ needed l.type →
              t.check host s = .error (.typeMismatch (.type (needed l.type)) w.type) (s₂.keep w)) ∧
            (w.type = needed l.type → ∃ b, t.check host s = .ok b (s₂.keep w)) := by
  constructor
  · intro v w s₁ s₂ first second r negated
    refine ⟨?_, ?_, ?_, ?_⟩
    · rintro l rfl
      exact agree_compareCalls first second r
    · rintro ls rfl
      exact agree_memberCall first second negated
    · intro noLiteral
      have other (u : LiteralType) : w.type ≠ u.single := by
        intro single
        obtain ⟨l, literal, _⟩ := w.exists_literal single
        exact noLiteral l literal
      obtain ⟨wanted, found, run⟩ := (OfTwo.compare r).mismatch first second other
      exact ⟨wanted, found, _, run⟩
    · intro noList
      have other (u : LiteralType) : w.type ≠ u.listed := by
        intro listed
        obtain ⟨ls, list, _⟩ := w.exists_choices listed
        exact noList ls list
      obtain ⟨wanted, found, run⟩ := (OfTwo.member negated).mismatch first second other
      exact ⟨wanted, found, _, run⟩
  · intro t needed two
    refine ⟨fun fault s₁ => two.check_of_left, fun v s₁ first => ⟨two.invocations_eq first,
      fun fault s₂ => two.check_of_right first, fun w s₂ second =>
        ⟨two.check_of_no_literal first second, ?_⟩⟩⟩
    rintro l rfl
    exact ⟨two.check_of_type_ne first second, two.check_of_type first second⟩

/-- A text that is looked up in an empty list of integers; an unusable answer beside that list, and one
    beside a failure. -/
theorem check_two_calls_unusable :
    let host : Host (Except String Value) Unit Nat String := ⟨fun answer _ _ _ n => (answer, n + 1)⟩
    let text : Call (Except String Value) := ⟨"a", .integer 1, .ok (.text "x"), false⟩
    let unusable : Call (Except String Value) := ⟨"b", .integer 2, .ok (.boolean true), false⟩
    let empty : Call (Except String Value) := ⟨"c", .integer 3, .ok (.integers []), false⟩
    let failing : Call (Except String Value) := ⟨"d", .integer 4, .error "unavailable", false⟩
    let s : EvalState Unit Nat := ⟨⟨(), none⟩, 0⟩
    Agree ((memberCall text empty true).check host s)
        ((member text (.integers []) true).check host s) ∧
      (memberCall unusable empty false).check host s =
        .error (.typeMismatch .integerOrText .boolean) ⟨⟨(), some (.integers [])⟩, 2⟩ ∧
      (Observation.of ((memberCall unusable empty false).check host.recording) ⟨(), none⟩ 0).invocations =
        [⟨.ok (.boolean true), "b", .integer 2⟩, ⟨.ok (.integers []), "c", .integer 3⟩] ∧
      (compareCalls unusable .equal failing).check host s =
        .error (.host "unavailable") ⟨⟨(), none⟩, 2⟩ := by
  intro host text unusable empty failing s
  obtain ⟨answers, _⟩ := check_two_calls host text empty s
  obtain ⟨_, precedence⟩ := check_two_calls host unusable empty s
  obtain ⟨_, failures⟩ := check_two_calls host unusable failing s
  obtain ⟨_, agree, _⟩ := answers _ _ _ _ rfl rfl .equal true
  obtain ⟨listed, _, mismatches⟩ := (precedence _ _ (.member false)).2 _ _ rfl
  obtain ⟨noLiteral, _⟩ := mismatches _ _ rfl
  obtain ⟨_, fails, _⟩ := (failures _ _ (.compare .equal)).2 _ _ rfl
  refine ⟨agree (.integers []) rfl, noLiteral ?_, listed, fails _ _ rfl⟩
  intro l
  cases l <;> rintro ⟨⟩

end Test

end RecordQuery
