import RecordQuery.Proofs.Condition.Relocation
import RecordQuery.Proofs.Grammar.Derivation
import RecordQuery.Proofs.Token.Word

/-!
# The same words at other places

The grammar looks at the words of a phrase and not at where they stand. So any other tokens with these
words are the same phrase, and their syntax tree is the same but for the offsets of names:
`Grammar.Derives.respell`.
-/

namespace RecordQuery

/-- Two runs of tokens have the same words, wherever they stand. -/
def SameWords (us ts : List Token) : Prop :=
  us.map Token.word = ts.map Token.word

namespace SameWords

variable {t : Token} {us ts rest : List Token}

theorem eq_nil (same : SameWords us []) : us = [] :=
  List.map_eq_nil_iff.mp same

theorem exists_cons (same : SameWords us (t :: ts)) :
    ∃ u vs, us = u :: vs ∧ u.word = t.word ∧ SameWords vs ts :=
  List.map_eq_cons_iff.mp same

theorem exists_append (same : SameWords us (ts ++ rest)) :
    ∃ vs vs', us = vs ++ vs' ∧ SameWords vs ts ∧ SameWords vs' rest := by
  rw [SameWords, List.map_append] at same
  exact List.map_eq_append_iff.mp same

end SameWords

theorem Token.kind_of_word {t u : Token} {k : TokenKind} (word : u.word = t.word)
    (kind : t.kind = k) : u.kind = k :=
  (congrArg Word.kind word).trans kind

namespace Grammar

variable {ts us : List Token}

/-- The place of a constant does not matter. -/
theorem IsLiteral.respell {t u : Token} {l : Literal} (literal : IsLiteral t l)
    (word : u.word = t.word) : IsLiteral u l := by
  have text : u.text = t.text := congrArg Word.text word
  cases literal with
  | integer kind value least greatest =>
    rw [← text] at value
    exact .integer (Token.kind_of_word word kind) value least greatest
  | text kind =>
    rw [← text]
    exact .text (Token.kind_of_word word kind)

theorem IsList.respell {ls : List Literal} (list : IsList ts ls) (same : SameWords us ts) :
    IsList us ls := by
  induction list generalizing us with
  | literal first =>
    obtain ⟨u, _, rfl, word, nil⟩ := same.exists_cons
    cases nil.eq_nil
    exact .literal (first.respell word)
  | comma _ separated next sameType ih =>
    obtain ⟨before, _, rfl, front, back⟩ := same.exists_append
    obtain ⟨c, _, rfl, comma, back⟩ := back.exists_cons
    obtain ⟨u, _, rfl, word, nil⟩ := back.exists_cons
    cases nil.eq_nil
    exact (ih front).comma (Token.kind_of_word comma separated) (next.respell word) sameType

theorem IsCall.respell {c : Call Nat} (call : IsCall ts c) (same : SameWords us ts) :
    ∃ d, IsCall us d ∧ d.relocate (fun _ => 0) = c.relocate fun _ => 0 := by
  cases call with
  | mk named opened argued closed =>
    obtain ⟨name, _, rfl, nameWord, same⟩ := same.exists_cons
    obtain ⟨opening, _, rfl, openingWord, same⟩ := same.exists_cons
    obtain ⟨argument, _, rfl, argumentWord, same⟩ := same.exists_cons
    obtain ⟨closing, _, rfl, closingWord, nil⟩ := same.exists_cons
    cases nil.eq_nil
    refine ⟨_, .mk (Token.kind_of_word nameWord named) (Token.kind_of_word openingWord opened)
      (argued.respell argumentWord) (Token.kind_of_word closingWord closed), ?_⟩
    have text : name.text = _ := congrArg Word.text nameWord
    rw [Call.relocate, text]
    rfl

theorem IsComparison.respell {t : Test Nat} (test : IsComparison ts t) (same : SameWords us ts) :
    ∃ u, IsComparison us u ∧ u.relocate (fun _ => 0) = t.relocate fun _ => 0 := by
  cases test with
  | call left =>
    obtain ⟨c, left, placed⟩ := left.respell same
    exact ⟨.call c, .call left, congrArg Test.call placed⟩
  | compare left related right =>
    obtain ⟨before, _, rfl, front, back⟩ := same.exists_append
    obtain ⟨o, _, rfl, relation, back⟩ := back.exists_cons
    obtain ⟨u, _, rfl, word, nil⟩ := back.exists_cons
    cases nil.eq_nil
    obtain ⟨c, left, placed⟩ := left.respell front
    refine ⟨_, .compare left (Token.kind_of_word relation related) (right.respell word), ?_⟩
    simp only [Test.relocate, placed]
  | compareCalls left related right =>
    obtain ⟨before, _, rfl, front, back⟩ := same.exists_append
    obtain ⟨o, after, rfl, relation, back⟩ := back.exists_cons
    obtain ⟨c, left, placed⟩ := left.respell front
    obtain ⟨d, right, placed'⟩ := right.respell back
    refine ⟨_, .compareCalls left (Token.kind_of_word relation related) right, ?_⟩
    simp only [Test.relocate, placed, placed']
  | member left within opened list closed =>
    obtain ⟨front, _, rfl, start, last⟩ := same.exists_append
    obtain ⟨closing, _, rfl, closingWord, nil⟩ := last.exists_cons
    cases nil.eq_nil
    obtain ⟨before, _, rfl, front, back⟩ := start.exists_append
    obtain ⟨i, _, rfl, inWord, back⟩ := back.exists_cons
    obtain ⟨opening, choices, rfl, openingWord, back⟩ := back.exists_cons
    obtain ⟨c, left, placed⟩ := left.respell front
    refine ⟨_, .member left (Token.kind_of_word inWord within)
      (Token.kind_of_word openingWord opened) (list.respell back)
      (Token.kind_of_word closingWord closed), ?_⟩
    simp only [Test.relocate, placed]
  | memberCall left within right =>
    obtain ⟨before, _, rfl, front, back⟩ := same.exists_append
    obtain ⟨i, after, rfl, inWord, back⟩ := back.exists_cons
    obtain ⟨c, left, placed⟩ := left.respell front
    obtain ⟨d, right, placed'⟩ := right.respell back
    refine ⟨_, .memberCall left (Token.kind_of_word inWord within) right, ?_⟩
    simp only [Test.relocate, placed, placed']

/-- Tokens with the words of a phrase are the phrase, with the same syntax tree but for the offsets of
    names. -/
theorem Derives.respell {p : Phrase} {n : Nat} {w : Written} (derived : Derives p n ts w)
    (same : SameWords us ts) : ∃ v, Derives p n us v ∧ Condition.SameButOffsets v w := by
  induction derived generalizing us with
  | comparison test =>
    obtain ⟨u, test, placed⟩ := test.respell same
    exact ⟨.test u, .comparison test, congrArg Formula.test placed⟩
  | negation negated _ operand =>
    obtain ⟨t, us, rfl, word, same⟩ := same.exists_cons
    obtain ⟨v, operand, placed⟩ := operand same
    exact ⟨.not v, .negation (Token.kind_of_word word negated) operand, congrArg Formula.not placed⟩
  | group opened _ closed inside =>
    obtain ⟨opening, _, rfl, openingWord, rest⟩ := same.exists_cons
    obtain ⟨us, _, rfl, within, last⟩ := rest.exists_append
    obtain ⟨closing, _, rfl, closingWord, nil⟩ := last.exists_cons
    cases nil.eq_nil
    obtain ⟨v, inside, placed⟩ := inside within
    exact ⟨v, .group (Token.kind_of_word openingWord opened) inside
      (Token.kind_of_word closingWord closed), placed⟩
  | item _ first =>
    obtain ⟨v, first, placed⟩ := first same
    exact ⟨.all [v], .item first, congrArg (fun f => Formula.all [f]) placed⟩
  | condition _ first =>
    obtain ⟨v, first, placed⟩ := first same
    exact ⟨.any [v], .condition first, congrArg (fun f => Formula.any [f]) placed⟩
  | and _ joined _ before last =>
    obtain ⟨front, _, rfl, start, rest⟩ := same.exists_append
    obtain ⟨t, us, rfl, word, back⟩ := rest.exists_cons
    obtain ⟨x, last, placed⟩ := last back
    obtain ⟨v, before, placed'⟩ := before start
    obtain ⟨vs, rfl, longer⟩ := placed'.all_snoc placed
    exact ⟨_, .and before (Token.kind_of_word word joined) last, longer⟩
  | or _ joined _ before last =>
    obtain ⟨front, _, rfl, start, rest⟩ := same.exists_append
    obtain ⟨t, us, rfl, word, back⟩ := rest.exists_cons
    obtain ⟨x, last, placed⟩ := last back
    obtain ⟨v, before, placed'⟩ := before start
    obtain ⟨vs, rfl, longer⟩ := placed'.any_snoc placed
    exact ⟨_, .or before (Token.kind_of_word word joined) last, longer⟩

end Grammar

end RecordQuery
