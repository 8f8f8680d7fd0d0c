import RecordQuery.Proofs.Grammar.Derivation
import RecordQuery.Proofs.Token.Vocabulary

/-!
# Writing conditions

A condition as the words of a query. The words depend on the phrase that is wanted: a group is put
into parentheses where the grammar has no group of its kind without them. A condition in normal form
has words of the language only (`Condition.isLexeme_of_mem_words`), so they can be written with
blanks between them (`Condition.spells_render`).
-/

namespace RecordQuery

open Grammar

variable {α : Type}

namespace Call

/-- A call with a name of the language whose truth is not inverted. -/
structure IsPlain (c : Call α) : Prop where
  named : IsName c.name
  asserted : c.negated = false

/-- The words of a call. -/
def words (c : Call α) : List Word :=
  [.name c.name, .openParen, .literal c.argument, .closeParen]

theorem isLexeme_of_mem_words {c : Call α} (named : IsName c.name) : ∀ w ∈ c.words, w.IsLexeme := by
  simp only [words, List.forall_mem_cons, List.not_mem_nil, false_implies, implies_true, and_true]
  exact ⟨Word.isLexeme_name named, Word.isLexeme_openParen, Word.isLexeme_literal _,
    Word.isLexeme_closeParen⟩

end Call

/-- The words of some constants, with a comma before each but the first. -/
def Literal.listWords : List Literal → List Word
  | [] => []
  | l :: ls => .literal l :: ls.flatMap fun m => [.comma, .literal m]

theorem Literal.isLexeme_of_mem_listWords (ls : List Literal) :
    ∀ w ∈ listWords ls, w.IsLexeme := by
  cases ls with
  | nil => exact List.forall_mem_nil _
  | cons l ls =>
    intro w member
    rcases List.mem_cons.mp member with rfl | member
    · exact Word.isLexeme_literal l
    obtain ⟨m, _, member⟩ := List.mem_flatMap.mp member
    rcases List.mem_cons.mp member with rfl | member
    · exact Word.isLexeme_comma
    · rw [List.mem_singleton.mp member]
      exact Word.isLexeme_literal m

namespace Test

/-- Tests that a query can write down: only a call that is a test of its own is inverted, and a list
    has two constants at least. -/
def IsNormal : Test α → Prop
  | call c => IsName c.name
  | compare c _ _ => c.IsPlain
  | compareCalls left _ right => left.IsPlain ∧ right.IsPlain
  | member c choices _ => c.IsPlain ∧ 2 ≤ choices.toList.length
  | memberCall left right _ => left.IsPlain ∧ right.IsPlain

/-- Whether the test denies what its words without a negation say. -/
def isNegated : Test α → Bool
  | call c => c.negated
  | member _ _ negated => negated
  | memberCall _ _ negated => negated
  | _ => false

/-- The words of a test without its negation. -/
def comparisonWords : Test α → List Word
  | call c => c.words
  | compare c r target => c.words ++ [.relation r, .literal target]
  | compareCalls left r right => left.words ++ .relation r :: right.words
  | member c choices _ =>
    c.words ++ .keyword .within :: .openParen :: (Literal.listWords choices.toList ++ [.closeParen])
  | memberCall left right _ => left.words ++ .keyword .within :: right.words

/-- The words of a test. -/
def words (t : Test α) : List Word :=
  if t.isNegated then .keyword .not :: t.comparisonWords else t.comparisonWords

/-- The test that a negated test denies has the same words but for the negation. -/
theorem negate_of_isNegated {t : Test α} (normal : t.IsNormal) (negated : t.isNegated = true) :
    t.negate.IsNormal ∧ t.negate.isNegated = false ∧ t.negate.comparisonWords = t.comparisonWords := by
  cases t with
  | call c =>
    have asserted : (call c).negate.isNegated = false := congrArg not negated
    exact ⟨normal, asserted, rfl⟩
  | compare c r target | compareCalls left r right => cases negated
  | member c choices negated | memberCall left right negated =>
    cases negated
    exact ⟨normal, rfl, rfl⟩

theorem isLexeme_of_mem_words {t : Test α} (normal : t.IsNormal) : ∀ w ∈ t.words, w.IsLexeme := by
  have comparison : ∀ w ∈ t.comparisonWords, w.IsLexeme := by
    cases t with
    | call c => exact Call.isLexeme_of_mem_words normal
    | compare c r target =>
      refine List.forall_mem_append.mpr ⟨Call.isLexeme_of_mem_words normal.named, ?_⟩
      exact List.forall_mem_cons.mpr ⟨Word.isLexeme_relation r,
        List.forall_mem_singleton.mpr (Word.isLexeme_literal target)⟩
    | compareCalls left r right =>
      obtain ⟨left, right⟩ := normal
      refine List.forall_mem_append.mpr ⟨Call.isLexeme_of_mem_words left.named, ?_⟩
      exact List.forall_mem_cons.mpr ⟨Word.isLexeme_relation r,
        Call.isLexeme_of_mem_words right.named⟩
    | member c choices negated =>
      refine List.forall_mem_append.mpr ⟨Call.isLexeme_of_mem_words normal.1.named, ?_⟩
      refine List.forall_mem_cons.mpr ⟨Word.isLexeme_keyword .within, ?_⟩
      refine List.forall_mem_cons.mpr ⟨Word.isLexeme_openParen, ?_⟩
      exact List.forall_mem_append.mpr ⟨Literal.isLexeme_of_mem_listWords choices.toList,
        List.forall_mem_singleton.mpr Word.isLexeme_closeParen⟩
    | memberCall left right negated =>
      obtain ⟨left, right⟩ := normal
      refine List.forall_mem_append.mpr ⟨Call.isLexeme_of_mem_words left.named, ?_⟩
      exact List.forall_mem_cons.mpr ⟨Word.isLexeme_keyword .within,
        Call.isLexeme_of_mem_words right.named⟩
  unfold words
  split
  · exact List.forall_mem_cons.mpr ⟨Word.isLexeme_keyword .not, comparison⟩
  · exact comparison

end Test

/-- A formula without negations whose groups have two operands at least. -/
inductive Formula.IsNormal {τ : Type} (leaf : τ → Prop) : Formula τ → Prop
  | all {fs : List (Formula τ)} (many : 2 ≤ fs.length) (each : ∀ f ∈ fs, IsNormal leaf f) :
      IsNormal leaf (.all fs)
  | any {fs : List (Formula τ)} (many : 2 ≤ fs.length) (each : ∀ f ∈ fs, IsNormal leaf f) :
      IsNormal leaf (.any fs)
  | test {t : τ} (normal : leaf t) : IsNormal leaf (.test t)

namespace Condition

/-- A condition in the form in which it is kept, with names of the language. -/
def IsNormal (t : Condition α) : Prop :=
  Formula.IsNormal Test.IsNormal t

/-- The words of some operands, with a keyword before each but the first. -/
def joinWords (k : Keyword) : List (List Word) → List Word
  | [] => []
  | ws :: others => ws ++ others.flatMap (.keyword k :: ·)

/-- Some words, in parentheses if there have to be. -/
def enclose (needed : Bool) (ws : List Word) : List Word :=
  if needed then .openParen :: (ws ++ [.closeParen]) else ws

mutual

/-- The words of a condition, where the grammar wants a phrase. -/
def words (p : Phrase) : Condition α → List Word
  | .all fs => enclose (p = .atom) (joinWords .and (operandWords .atom fs))
  | .any fs => enclose (p ≠ .condition) (joinWords .or (operandWords .item fs))
  | .not f => .keyword .not :: words .atom f
  | .test t => t.words

/-- The words of each operand of a group. -/
def operandWords (p : Phrase) : List (Condition α) → List (List Word)
  | [] => []
  | f :: fs => words p f :: operandWords p fs

end

mutual

/-- How many groups are open at once in the words of a condition. -/
def depth (p : Phrase) : Condition α → Nat
  | .all fs => (if p = .atom then 1 else 0) + operandDepth .atom fs
  | .any fs => (if p ≠ .condition then 1 else 0) + operandDepth .item fs
  | .not f => depth .atom f
  | .test _ => 0

/-- How many groups are open at once in the words of some operands. -/
def operandDepth (p : Phrase) : List (Condition α) → Nat
  | [] => 0
  | f :: fs => max (depth p f) (operandDepth p fs)

end

/-- A condition as a query. -/
def render (t : Condition α) : String :=
  String.ofList (Word.spell (t.words .condition))

/-- A conjunction needs parentheses around a disjunction in it. -/
example :
    let a : Condition Unit := .test (.call ⟨"a", .text "it's", (), true⟩)
    let b : Condition Unit := .test (.compare ⟨"b", .integer (-2), (), false⟩ .atMost (.integer 3))
    render (.all [b, .any [a, b]]) =
      " b ( -2 ) <= 3 and ( not a ( 'it\\'s' ) or b ( -2 ) <= 3 )" := by
  decide

theorem operandWords_eq_map (p : Phrase) (fs : List (Condition α)) :
    operandWords p fs = fs.map (words p) := by
  induction fs with
  | nil => rfl
  | cons f fs ih => rw [operandWords, ih, List.map_cons]

theorem isLexeme_of_mem_enclose {needed : Bool} {ws : List Word} (lexemes : ∀ w ∈ ws, w.IsLexeme) :
    ∀ w ∈ enclose needed ws, w.IsLexeme := by
  cases needed with
  | false => exact lexemes
  | true =>
    intro w member
    rcases List.mem_cons.mp member with rfl | member
    · exact Word.isLexeme_openParen
    rcases List.mem_append.mp member with member | member
    · exact lexemes w member
    · rw [List.mem_singleton.mp member]
      exact Word.isLexeme_closeParen

theorem isLexeme_of_mem_joinWords {k : Keyword} {wss : List (List Word)}
    (lexemes : ∀ ws ∈ wss, ∀ w ∈ ws, w.IsLexeme) : ∀ w ∈ joinWords k wss, w.IsLexeme := by
  cases wss with
  | nil => exact List.forall_mem_nil _
  | cons ws others =>
    obtain ⟨first, others'⟩ := List.forall_mem_cons.mp lexemes
    intro w member
    rcases List.mem_append.mp member with member | member
    · exact first w member
    obtain ⟨us, operand, member⟩ := List.mem_flatMap.mp member
    rcases List.mem_cons.mp member with rfl | member
    · exact Word.isLexeme_keyword k
    · exact others' us operand w member

theorem isLexeme_of_mem_words {t : Condition α} (normal : t.IsNormal) (p : Phrase) :
    ∀ w ∈ t.words p, w.IsLexeme := by
  induction normal generalizing p with
  | @all fs _ _ ih =>
    refine isLexeme_of_mem_enclose (isLexeme_of_mem_joinWords ?_)
    rw [operandWords_eq_map]
    rintro ws operand
    obtain ⟨f, member, rfl⟩ := List.mem_map.mp operand
    exact ih f member .atom
  | @any fs _ _ ih =>
    refine isLexeme_of_mem_enclose (isLexeme_of_mem_joinWords ?_)
    rw [operandWords_eq_map]
    rintro ws operand
    obtain ⟨f, member, rfl⟩ := List.mem_map.mp operand
    exact ih f member .item
  | test normal => exact Test.isLexeme_of_mem_words normal

/-- A condition in normal form can be written down. -/
theorem spells_render {t : Condition α} (normal : t.IsNormal) :
    Spells (t.words .condition) t.render.toList := by
  rw [render, String.toList_ofList]
  exact Word.spells_spell (isLexeme_of_mem_words normal .condition)

end Condition

end RecordQuery
