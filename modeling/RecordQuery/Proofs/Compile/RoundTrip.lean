import RecordQuery.Proofs.Compile.Acceptance
import RecordQuery.Proofs.Condition.Rendering

/-!
# Written conditions are compiled to themselves

The words of a condition in normal form are derived by the grammar, and their syntax tree comes to
the condition again when its calls are bound and it is simplified: `compile_render`.
-/

namespace RecordQuery

open Grammar

namespace Grammar

/-- A list goes on with constants of its type. -/
theorem IsList.append {ts us : List Token} {l : Literal} {ls ms : List Literal}
    (list : IsList ts (l :: ls)) (sameType : ∀ m ∈ ms, m.type = l.type)
    (words : us.map Token.word = ms.flatMap fun m => [.comma, .literal m]) :
    IsList (ts ++ us) (l :: ls ++ ms) := by
  induction ms generalizing ts us ls with
  | nil =>
    cases List.map_eq_nil_iff.mp words
    rwa [List.append_nil, List.append_nil]
  | cons m ms ih =>
    obtain ⟨type, others⟩ := List.forall_mem_cons.mp sameType
    simp only [List.flatMap_cons, List.cons_append, List.nil_append, List.map_eq_cons_iff] at words
    obtain ⟨c, _, rfl, comma, t, us, rfl, word, rest⟩ := words
    have next := isLiteral_iff.mpr (Word.literal_of_word word)
    have longer : IsList (ts ++ [c, t]) (l :: (ls ++ [m])) :=
      list.comma (congrArg Word.kind comma) next type
    have all := ih longer others rest
    simpa only [List.append_assoc, List.cons_append, List.nil_append] using all

/-- The words of a list of constants of one type. -/
theorem isList_of_words {ts : List Token} {choices : Choices} (some : choices.toList ≠ [])
    (words : ts.map Token.word = Literal.listWords choices.toList) : IsList ts choices.toList := by
  obtain ⟨l, ls, listed⟩ := List.exists_cons_of_ne_nil some
  have sameType : ∀ m ∈ l :: ls, m.type = choices.type := by
    intro m member
    rw [← listed] at member
    exact Choices.type_of_mem_toList member
  obtain ⟨type, others⟩ := List.forall_mem_cons.mp sameType
  rw [listed] at words ⊢
  rw [Literal.listWords, List.map_eq_cons_iff] at words
  obtain ⟨t, us, rfl, word, rest⟩ := words
  have first : IsList [t] [l] := .literal (isLiteral_iff.mpr (Word.literal_of_word word))
  exact first.append (fun m member => (others m member).trans type.symm) rest

end Grammar

/-- A list of two constants or more stays a list. -/
theorem Test.unlist_member {α : Type} {c : Call α} {choices : Choices}
    (many : 2 ≤ choices.toList.length) (negated : Bool) :
    (member c choices negated).unlist = member c choices negated := by
  rcases choices with (_ | ⟨n, _ | _⟩) | (_ | ⟨s, _ | _⟩)
  case integers.cons.nil => exact absurd many (Nat.not_succ_le_self 1)
  case texts.cons.nil => exact absurd many (Nat.not_succ_le_self 1)
  all_goals rfl

namespace Condition

variable {α : Type} {f : Condition α} {fs : List (Condition α)}

/-- The calls of an operand are calls of its group. -/
theorem mem_calls_of_mem (member : f ∈ fs) {c : Call α} (called : c ∈ f.calls) :
    c ∈ (Formula.testsAll fs).flatMap Test.calls := by
  obtain ⟨t, inside, of⟩ := List.mem_flatMap.mp called
  refine List.mem_flatMap.mpr ⟨t, ?_, of⟩
  rw [Formula.testsAll_eq_flatMap]
  exact List.mem_flatMap.mpr ⟨f, member, inside⟩

theorem simplify_all (fs : List (Condition α)) :
    simplify (.all fs) = Formula.conjunction (fs.map simplify) := by
  simp only [simplify, Formula.settle, Formula.settleAll_eq_map, Bool.false_eq_true, if_false]
  rfl

theorem simplify_any (fs : List (Condition α)) :
    simplify (.any fs) = Formula.disjunction (fs.map simplify) := by
  simp only [simplify, Formula.settle, Formula.settleAll_eq_map, Bool.false_eq_true, if_false]
  rfl

theorem depth_le_operandDepth {p : Phrase} (member : f ∈ fs) : f.depth p ≤ operandDepth p fs := by
  induction fs with
  | nil => cases member
  | cons g fs ih =>
    rw [operandDepth]
    rcases List.mem_cons.mp member with rfl | member
    · exact Nat.le_max_left _ _
    · exact Nat.le_trans (ih member) (Nat.le_max_right _ _)

end Condition

namespace Registry

variable {α : Type}

/-- Negating a test does not change its accessors. -/
theorem supplies_negate {registry : Registry α} {t : Test α}
    (supplied : ∀ c ∈ t.calls, registry.Supplies c) : ∀ c ∈ t.negate.calls, registry.Supplies c := by
  cases t with
  | call c => exact List.forall_mem_singleton.mpr (supplied c List.mem_cons_self)
  | _ => exact supplied

/-- The words of a call are the call. -/
theorem isCall_of_words (registry : Registry α) {c : Call α} (plain : c.IsPlain)
    (supplied : registry.Supplies c) {ts : List Token} (words : ts.map Token.word = c.words) :
    ∃ d, IsCall ts d ∧ registry.boundCall? d = some c := by
  simp only [Call.words, List.map_eq_cons_iff, List.map_eq_nil_iff] at words
  obtain ⟨name, _, rfl, named, opening, _, rfl, opened, argument, _, rfl, argued, closing, _, rfl,
    closed, rfl⟩ := words
  refine ⟨_, .mk (congrArg Word.kind named) (congrArg Word.kind opened)
    (isLiteral_iff.mpr (Word.literal_of_word argued)) (congrArg Word.kind closed), ?_⟩
  have text : name.text = c.name := congrArg Word.text named
  obtain ⟨found, resolved, accessor⟩ := Option.map_eq_some_iff.mp (supplies_iff.mp supplied)
  simp only [boundCall?, text, resolved, Option.map_some, accessor]
  rw [← plain.asserted]

/-- The words of a test without its negation are the test. -/
theorem isComparison_of_words (registry : Registry α) {t : Test α} (normal : t.IsNormal)
    (asserted : t.isNegated = false) (supplied : ∀ c ∈ t.calls, registry.Supplies c)
    {ts : List Token} (words : ts.map Token.word = t.comparisonWords) :
    ∃ u, IsComparison ts u ∧ u.unlist.traverse registry.boundCall? = some t := by
  cases t with
  | call c =>
    obtain ⟨d, call, bound⟩ := registry.isCall_of_words ⟨normal, asserted⟩
      (supplied c List.mem_cons_self) words
    refine ⟨.call d, .call call, ?_⟩
    simp only [Test.unlist, Test.traverse, bound, bind_pure_comp, Option.map_eq_map, Option.map_some]
  | compare c r target =>
    rw [Test.comparisonWords, List.map_eq_append_iff] at words
    obtain ⟨ls, us, rfl, left, right⟩ := words
    simp only [List.map_eq_cons_iff, List.map_eq_nil_iff] at right
    obtain ⟨o, _, rfl, related, t, _, rfl, constant, rfl⟩ := right
    obtain ⟨d, call, bound⟩ := registry.isCall_of_words normal (supplied c List.mem_cons_self) left
    refine ⟨.compare d r target, .compare call (congrArg Word.kind related)
      (isLiteral_iff.mpr (Word.literal_of_word constant)), ?_⟩
    simp only [Test.unlist, Test.traverse, bound, bind_pure_comp, Option.map_eq_map, Option.map_some]
  | compareCalls left r right =>
    rw [Test.comparisonWords, List.map_eq_append_iff] at words
    obtain ⟨ls, us, rfl, first, others⟩ := words
    obtain ⟨o, rs, rfl, related, second⟩ := List.map_eq_cons_iff.mp others
    obtain ⟨suppliedLeft, suppliedRight⟩ := List.forall_mem_cons.mp supplied
    obtain ⟨d, call, bound⟩ := registry.isCall_of_words normal.1 suppliedLeft first
    obtain ⟨e, call', bound'⟩ := registry.isCall_of_words normal.2
      (List.forall_mem_singleton.mp suppliedRight) second
    refine ⟨.compareCalls d r e, .compareCalls call (congrArg Word.kind related) call', ?_⟩
    simp only [Test.unlist, Test.traverse, bound, bound', bind_pure_comp, Option.map_eq_map,
      Option.map_some, Option.bind_eq_bind, Option.bind_some]
  | member c choices negated =>
    rw [Test.comparisonWords, List.map_eq_append_iff] at words
    obtain ⟨ls, us, rfl, first, others⟩ := words
    obtain ⟨i, _, rfl, within, others⟩ := List.map_eq_cons_iff.mp others
    obtain ⟨opening, _, rfl, opened, others⟩ := List.map_eq_cons_iff.mp others
    obtain ⟨cs, _, rfl, list, last⟩ := List.map_eq_append_iff.mp others
    obtain ⟨closing, _, rfl, closed, last⟩ := List.map_eq_cons_iff.mp last
    cases List.map_eq_nil_iff.mp last
    obtain ⟨plain, many⟩ := normal
    cases asserted
    have some : choices.toList ≠ [] := by
      intro none
      rw [none] at many
      cases many
    obtain ⟨d, call, bound⟩ := registry.isCall_of_words plain (supplied c List.mem_cons_self) first
    have member := IsComparison.member call (congrArg Word.kind within) (congrArg Word.kind opened)
      (isList_of_words some list) (congrArg Word.kind closed)
    refine ⟨.member d choices false, ?_, ?_⟩
    · simpa only [List.append_assoc, List.cons_append] using member
    · rw [Test.unlist_member many]
      simp only [Test.traverse, bound, bind_pure_comp, Option.map_eq_map, Option.map_some]
  | memberCall left right negated =>
    rw [Test.comparisonWords, List.map_eq_append_iff] at words
    obtain ⟨ls, us, rfl, first, others⟩ := words
    obtain ⟨i, rs, rfl, within, second⟩ := List.map_eq_cons_iff.mp others
    obtain ⟨suppliedLeft, suppliedRight⟩ := List.forall_mem_cons.mp supplied
    cases asserted
    obtain ⟨d, call, bound⟩ := registry.isCall_of_words normal.1 suppliedLeft first
    obtain ⟨e, call', bound'⟩ := registry.isCall_of_words normal.2
      (List.forall_mem_singleton.mp suppliedRight) second
    refine ⟨.memberCall d e false, .memberCall call (congrArg Word.kind within) call', ?_⟩
    simp only [Test.unlist, Test.traverse, bound, bound', bind_pure_comp, Option.map_eq_map,
      Option.map_some, Option.bind_eq_bind, Option.bind_some]

/-- Simplified and bound, the syntax trees are the conditions, one by one. -/
def YieldsAll (registry : Registry α) (ws : List Written) (fs : List (Condition α)) : Prop :=
  Formula.traverseAll (Test.traverse registry.boundCall?) (ws.map Condition.simplify) = some fs

variable {registry : Registry α} {p : Phrase} {n : Nat} {w : Written} {f : Condition α}
  {ws : List Written} {fs : List (Condition α)}

theorem YieldsAll.nil : registry.YieldsAll [] [] :=
  rfl

theorem Yields.cons (first : registry.Yields w f) (others : registry.YieldsAll ws fs) :
    registry.YieldsAll (w :: ws) (f :: fs) := by
  unfold Yields at first
  unfold YieldsAll at others ⊢
  simp only [List.map_cons, Formula.traverseAll, first, others, Option.bind_eq_bind,
    Option.bind_some, Option.pure_def]

theorem yields_test {u : Test Nat} {t : Test α}
    (bound : u.unlist.traverse registry.boundCall? = some t) :
    registry.Yields (.test u) (.test t) := by
  show Formula.traverse _ (Formula.test u.unlist) = _
  simp only [Formula.traverse, bound, bind_pure_comp, Option.map_eq_map, Option.map_some]

theorem yields_not_test {u : Test Nat} {t : Test α}
    (bound : u.unlist.traverse registry.boundCall? = some t) :
    registry.Yields (.not (.test u)) (.test t.negate) := by
  show Formula.traverse _ (Formula.test u.unlist.negate) = _
  simp only [Formula.traverse, Test.traverse_negate registry.boundCall?_negate, bound,
    bind_pure_comp, Option.map_eq_map, Option.map_some]

theorem YieldsAll.all (operands : registry.YieldsAll ws fs) :
    registry.Yields (.all ws) (Formula.conjunction fs) := by
  unfold YieldsAll at operands
  rw [Yields, Condition.simplify_all, Formula.traverse_conjunction, operands]
  rfl

theorem YieldsAll.any (operands : registry.YieldsAll ws fs) :
    registry.Yields (.any ws) (Formula.disjunction fs) := by
  unfold YieldsAll at operands
  rw [Yields, Condition.simplify_any, Formula.traverse_disjunction, operands]
  rfl

/-- Any tokens with some words are a phrase, and its syntax tree comes to the condition. -/
def Recovers (registry : Registry α) (p : Phrase) (n : Nat) (ws : List Word) (f : Condition α) :
    Prop :=
  ∀ ts : List Token, ts.map Token.word = ws → ∃ w, Derives p n ts w ∧ registry.Yields w f

namespace Recovers

variable {us : List Word}

theorem item (atom : registry.Recovers .atom n us f) : registry.Recovers .item n us f := by
  intro ts words
  obtain ⟨w, derived, yields⟩ := atom ts words
  exact ⟨.all [w], .item derived, (yields.cons .nil).all⟩

theorem condition (item : registry.Recovers .item n us f) : registry.Recovers .condition n us f := by
  intro ts words
  obtain ⟨w, derived, yields⟩ := item ts words
  exact ⟨.any [w], .condition derived, (yields.cons .nil).any⟩

/-- An atom is a phrase of every kind. -/
theorem ofAtom (atom : registry.Recovers .atom n us f) (p : Phrase) : registry.Recovers p n us f := by
  cases p with
  | atom => exact atom
  | item => exact atom.item
  | condition => exact atom.item.condition

theorem group (inside : registry.Recovers .condition n us f) :
    registry.Recovers .atom (n + 1) (.openParen :: (us ++ [.closeParen])) f := by
  intro ts words
  obtain ⟨opening, _, rfl, opened, others⟩ := List.map_eq_cons_iff.mp words
  obtain ⟨ts, _, rfl, inner, last⟩ := List.map_eq_append_iff.mp others
  obtain ⟨closing, _, rfl, closed, last⟩ := List.map_eq_cons_iff.mp last
  cases List.map_eq_nil_iff.mp last
  obtain ⟨w, derived, yields⟩ := inside ts inner
  exact ⟨w, .group (congrArg Word.kind opened) derived (congrArg Word.kind closed), yields⟩

/-- A phrase in parentheses has one more group open. -/
theorem enclosed {d : Nat} (inside : ∀ m, d ≤ m → registry.Recovers .condition m us f)
    (room : 1 + d ≤ n) : registry.Recovers .atom n (Condition.enclose true us) f := by
  cases n with
  | zero => omega
  | succ n => exact (inside n (by omega)).group

theorem test {t : Test α} (normal : t.IsNormal) (supplied : ∀ c ∈ t.calls, registry.Supplies c) :
    registry.Recovers .atom n t.words (.test t) := by
  intro ts words
  unfold Test.words at words
  cases negated : t.isNegated with
  | false =>
    simp only [negated, Bool.false_eq_true, if_false] at words
    obtain ⟨u, comparison, bound⟩ := registry.isComparison_of_words normal negated supplied words
    exact ⟨.test u, .comparison comparison, yields_test bound⟩
  | true =>
    simp only [negated, if_true] at words
    obtain ⟨k, ts, rfl, denied, words⟩ := List.map_eq_cons_iff.mp words
    obtain ⟨normal', asserted, same⟩ := Test.negate_of_isNegated normal negated
    rw [← same] at words
    obtain ⟨u, comparison, bound⟩ :=
      registry.isComparison_of_words normal' asserted (supplies_negate supplied) words
    have yields := yields_not_test bound
    rw [Test.negate_negate] at yields
    exact ⟨.not (.test u), .negation (congrArg Word.kind denied) (.comparison comparison), yields⟩

/-- A group goes on with more operands. `D` says what has been derived of it. -/
theorem operands {D : List Token → List Written → Prop} {k : Keyword}
    (extend : ∀ {ts us t vs w}, D ts vs → t.kind = .keyword k → Derives p n us w →
      D (ts ++ t :: us) (vs ++ [w]))
    (each : ∀ f ∈ fs, registry.Recovers p n (f.words p) f) {ts us : List Token} {vs : List Written}
    (before : D ts vs)
    (words : us.map Token.word = (Condition.operandWords p fs).flatMap (.keyword k :: ·)) :
    ∃ ws, D (ts ++ us) (vs ++ ws) ∧ registry.YieldsAll ws fs := by
  induction fs generalizing ts us vs with
  | nil =>
    cases List.map_eq_nil_iff.mp words
    refine ⟨[], ?_, rfl⟩
    rwa [List.append_nil, List.append_nil]
  | cons f fs ih =>
    obtain ⟨first, others⟩ := List.forall_mem_cons.mp each
    rw [Condition.operandWords, List.flatMap_cons, List.cons_append] at words
    obtain ⟨t, _, rfl, joined, words⟩ := List.map_eq_cons_iff.mp words
    obtain ⟨us, rest, rfl, operand, words⟩ := List.map_eq_append_iff.mp words
    obtain ⟨w, derived, yields⟩ := first us operand
    obtain ⟨ws, all, yieldsAll⟩ := ih others (extend before (congrArg Word.kind joined) derived) words
    refine ⟨w :: ws, ?_, yields.cons yieldsAll⟩
    simpa only [List.append_assoc, List.cons_append, List.nil_append] using all

theorem all (many : 2 ≤ fs.length) (each : ∀ f ∈ fs, registry.Recovers .atom n (f.words .atom) f) :
    registry.Recovers .item n (Condition.joinWords .and (Condition.operandWords .atom fs))
      (.all fs) := by
  intro ts words
  match fs with
  | [] => cases many
  | [f] => exact absurd many (Nat.not_succ_le_self 1)
  | f :: g :: fs =>
    obtain ⟨first, others⟩ := List.forall_mem_cons.mp each
    obtain ⟨ts, us, rfl, operand, words⟩ := List.map_eq_append_iff.mp words
    obtain ⟨w, derived, yields⟩ := first ts operand
    obtain ⟨ws, all, yieldsAll⟩ := operands (D := fun ts vs => Derives .item n ts (.all vs)) .and
      others (.item derived) words
    exact ⟨.all (w :: ws), all, (yields.cons yieldsAll).all⟩

theorem any (many : 2 ≤ fs.length) (each : ∀ f ∈ fs, registry.Recovers .item n (f.words .item) f) :
    registry.Recovers .condition n (Condition.joinWords .or (Condition.operandWords .item fs))
      (.any fs) := by
  intro ts words
  match fs with
  | [] => cases many
  | [f] => exact absurd many (Nat.not_succ_le_self 1)
  | f :: g :: fs =>
    obtain ⟨first, others⟩ := List.forall_mem_cons.mp each
    obtain ⟨ts, us, rfl, operand, words⟩ := List.map_eq_append_iff.mp words
    obtain ⟨w, derived, yields⟩ := first ts operand
    obtain ⟨ws, all, yieldsAll⟩ := operands (D := fun ts vs => Derives .condition n ts (.any vs)) .or
      others (.condition derived) words
    exact ⟨.any (w :: ws), all, (yields.cons yieldsAll).any⟩

end Recovers

/-- The words of a condition in normal form are the condition. -/
theorem recovers_words (normal : f.IsNormal) (supplied : ∀ c ∈ f.calls, registry.Supplies c)
    (p : Phrase) (n : Nat) (room : f.depth p ≤ n) : registry.Recovers p n (f.words p) f := by
  induction normal generalizing p n with
  | @all fs many _ ih =>
    have inside : ∀ m, Condition.operandDepth .atom fs ≤ m →
        registry.Recovers .item m (Condition.joinWords .and (Condition.operandWords .atom fs))
          (.all fs) := by
      intro m room
      refine .all many fun f member => ih f member ?_ .atom m ?_
      · exact fun c called => supplied c (Condition.mem_calls_of_mem member called)
      · exact Nat.le_trans (Condition.depth_le_operandDepth member) room
    cases p with
    | atom => exact .enclosed (fun m room => (inside m room).condition) room
    | item => exact inside n (by simpa [Condition.depth] using room)
    | condition => exact (inside n (by simpa [Condition.depth] using room)).condition
  | @any fs many _ ih =>
    have inside : ∀ m, Condition.operandDepth .item fs ≤ m →
        registry.Recovers .condition m (Condition.joinWords .or (Condition.operandWords .item fs))
          (.any fs) := by
      intro m room
      refine .any many fun f member => ih f member ?_ .item m ?_
      · exact fun c called => supplied c (Condition.mem_calls_of_mem member called)
      · exact Nat.le_trans (Condition.depth_le_operandDepth member) room
    cases p with
    | atom => exact .enclosed inside room
    | item => exact (Recovers.enclosed inside room).item
    | condition => exact inside n (by simpa [Condition.depth] using room)
  | @test t normal =>
    have calls : ∀ c ∈ t.calls, registry.Supplies c := by
      intro c called
      refine supplied c ?_
      rw [Condition.calls, Formula.tests, List.flatMap_singleton]
      exact called
    exact (Recovers.test normal calls).ofAtom p

/-- A condition in normal form that opens no more groups at once than may be, and whose calls have
    the accessors that the registry has for them, is what its text is compiled to, and every other
    text of its words. -/
theorem compile_render (registry : Registry α) (t : Condition α) (normal : t.IsNormal)
    (room : t.depth .condition ≤ maxNesting) (supplied : ∀ c ∈ t.calls, registry.Supplies c) :
    registry.compile t.render = .ok t ∧
      ∀ query : String, Spells (t.words .condition) query.toList →
        registry.compile query = .ok t := by
  have spelled : ∀ query : String, Spells (t.words .condition) query.toList →
      registry.compile query = .ok t := by
    intro query spells
    obtain ⟨w, derived, yields⟩ :=
      recovers_words normal supplied .condition maxNesting room (tokenize query) spells.tokenize
    rw [Yields, Condition.traverse_simplify registry.boundCall?_negate, Option.map_eq_map,
      Option.map_eq_some_iff] at yields
    obtain ⟨u, bound, simplified⟩ := yields
    exact (registry.compile_eq_ok_iff_derives query t).mpr ⟨w, u, derived, bound, simplified⟩
  exact ⟨spelled t.render (Condition.spells_render normal), spelled⟩

/-- A disjunction inside a conjunction inside a disjunction, with negations, escapes, the least
    integer, and names that begin like keywords. -/
theorem compile_render_nested :
    let registry : Registry Bool := { integerFallback := some true, textFallback := some false }
    let t : Condition Bool := .any [
      .test (.call ⟨"order", .text "it's a \\ 'x'", false, true⟩),
      .all [
        .test (.compare ⟨"In_", .integer 7, true, false⟩ .atMost (.integer Int64.minValue)),
        .any [
          .test (.member ⟨"$n0", .text "", false, false⟩ (.texts ["not", "'"]) true),
          .test (.memberCall ⟨"a", .integer 1, true, false⟩ ⟨"b", .text "AND", false, false⟩ false)]]]
    registry.compile t.render = .ok t ∧
      ∀ query : String, Spells (t.words .condition) query.toList →
        registry.compile query = .ok t := by
  intro registry t
  have named : IsName "order" := by decide
  have normal : t.IsNormal := by
    refine .any (by decide) (List.forall_mem_cons.mpr ⟨.test named, ?_⟩)
    refine List.forall_mem_singleton.mpr (.all (by decide) ?_)
    refine List.forall_mem_cons.mpr ⟨.test ⟨by decide, rfl⟩, ?_⟩
    refine List.forall_mem_singleton.mpr (.any (by decide) ?_)
    refine List.forall_mem_cons.mpr ⟨.test ⟨⟨by decide, rfl⟩, by decide⟩, ?_⟩
    exact List.forall_mem_singleton.mpr (.test ⟨⟨by decide, rfl⟩, ⟨by decide, rfl⟩⟩)
  have supplied : ∀ c ∈ t.calls, registry.Supplies c := by
    unfold Registry.Supplies
    decide
  exact registry.compile_render t normal (by decide) supplied

end Registry

end RecordQuery
