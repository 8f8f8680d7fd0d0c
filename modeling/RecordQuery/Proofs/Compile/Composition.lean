import Mathlib
import RecordQuery.Proofs.Compile.RoundTrip
import RecordQuery.Proofs.Condition.Negation
import RecordQuery.Proofs.Evaluation.Holds
import RecordQuery.Proofs.Evaluation.Observation
import RecordQuery.Proofs.Grammar.Refusal
import RecordQuery.Proofs.Grammar.Respelling

/-!
# Queries inside queries

A query in parentheses is an atom of any larger query and stands there for the condition that it is
compiled to. So negations, conjunctions and disjunctions of queries can be written by putting their
texts together: `compile_compounds`. Without parentheses that works for alternatives, which join the
alternatives of both queries: `Grammar.Derives.alternatives`.
-/

namespace RecordQuery

open Grammar

namespace Registry

variable {α : Type} {registry : Registry α} {p : Phrase} {n m : Nat} {w : Written}
  {f g : Condition α} {us vs : List Word}

/-- Where its calls stand does not matter to which accessors a syntax tree gets. -/
theorem boundTree?_relocate (registry : Registry α) (move : Nat → Nat) (w : Written) :
    registry.boundTree? (w.relocate move) = registry.boundTree? w :=
  Condition.traverse_relocate move registry.boundCall? w

/-- Syntax trees that are the same but for the offsets of names come to the same condition. -/
theorem Yields.congr {v : Written} (yields : registry.Yields w f)
    (same : Condition.SameButOffsets v w) : registry.Yields v f := by
  rw [yields_iff] at yields ⊢
  rwa [← registry.boundTree?_relocate (fun _ => 0) v, same, registry.boundTree?_relocate]

theorem Yields.not (yields : registry.Yields w f) : registry.Yields (.not w) f.negate := by
  obtain ⟨u, bound, rfl⟩ := yields_iff.mp yields
  refine yields_iff.mpr ⟨.not u, ?_, Condition.simplify_not u⟩
  unfold boundTree? at bound ⊢
  simp only [Formula.traverse, bound, bind_pure_comp, Option.map_eq_map, Option.map_some]

/-- What a syntax tree comes to is the complement of its complement. -/
theorem Yields.negate_negate (yields : registry.Yields w f) : f.negate.negate = f := by
  obtain ⟨u, _, rfl⟩ := yields_iff.mp yields
  exact Condition.negate_negate_simplify u

/-- The alternatives of a syntax tree come to the alternatives of its condition. -/
theorem Yields.exists_disjunction {ws : List Written} (yields : registry.Yields (.any ws) f) :
    ∃ fs, registry.YieldsAll ws fs ∧ f = Formula.disjunction fs := by
  rw [Yields, Condition.simplify_any, Formula.traverse_disjunction, Option.map_eq_map,
    Option.map_eq_some_iff] at yields
  obtain ⟨fs, operands, rfl⟩ := yields
  exact ⟨fs, operands, rfl⟩

theorem YieldsAll.append {ws vs : List Written} {fs gs : List (Condition α)}
    (first : registry.YieldsAll ws fs) (second : registry.YieldsAll vs gs) :
    registry.YieldsAll (ws ++ vs) (fs ++ gs) := by
  unfold YieldsAll at first second ⊢
  simp only [List.map_append, Formula.traverseAll_append, first, second, Option.bind_eq_bind,
    Option.bind_some, Option.pure_def]

/-- The words of a phrase recover its condition. -/
theorem recovers_of_derives {ts : List Token} (derived : Derives p n ts w)
    (yields : registry.Yields w f) : registry.Recovers p n (ts.map Token.word) f := by
  intro us words
  obtain ⟨v, derived', same⟩ := derived.respell words
  exact ⟨v, derived', yields.congr same⟩

namespace Recovers

theorem negation (atom : registry.Recovers .atom n us f) :
    registry.Recovers .atom n (.keyword .not :: us) f.negate := by
  intro ts words
  obtain ⟨t, ts, rfl, negated, words⟩ := List.map_eq_cons_iff.mp words
  obtain ⟨w, derived, yields⟩ := atom ts words
  exact ⟨.not w, .negation (congrArg Word.kind negated) derived, yields.not⟩

/-- Two phrases with a keyword between them. -/
theorem exists_joined {k : Keyword} (left : registry.Recovers p n us f)
    (right : registry.Recovers p n vs g) {ts : List Token}
    (words : ts.map Token.word = us ++ .keyword k :: vs) :
    ∃ ls t rs w v, ts = ls ++ t :: rs ∧ t.kind = .keyword k ∧
      (Derives p n ls w ∧ registry.Yields w f) ∧ Derives p n rs v ∧ registry.Yields v g := by
  obtain ⟨ls, _, rfl, first, rest⟩ := List.map_eq_append_iff.mp words
  obtain ⟨t, rs, rfl, joined, second⟩ := List.map_eq_cons_iff.mp rest
  obtain ⟨w, before⟩ := left ls first
  obtain ⟨v, after⟩ := right rs second
  exact ⟨ls, t, rs, w, v, rfl, congrArg Word.kind joined, before, after⟩

theorem both (left : registry.Recovers .atom n us f) (right : registry.Recovers .atom n vs g) :
    registry.Recovers .item n (us ++ .keyword .and :: vs) (.all [f, g]) := by
  intro ts words
  obtain ⟨ls, t, rs, w, v, rfl, joined, ⟨derived, yields⟩, derived', yields'⟩ :=
    left.exists_joined right words
  exact ⟨.all [w, v], .and (.item derived) joined derived', (yields.cons (yields'.cons .nil)).all⟩

theorem either (left : registry.Recovers .item n us f) (right : registry.Recovers .item n vs g) :
    registry.Recovers .condition n (us ++ .keyword .or :: vs) (.any [f, g]) := by
  intro ts words
  obtain ⟨ls, t, rs, w, v, rfl, joined, ⟨derived, yields⟩, derived', yields'⟩ :=
    left.exists_joined right words
  exact ⟨.any [w, v], .or (.condition derived) joined derived', (yields.cons (yields'.cons .nil)).any⟩

/-- A query is compiled to the condition that its words recover. -/
theorem compile (recovers : registry.Recovers .condition maxNesting us f) {cs : List Char}
    (spells : Spells us cs) {query : String} (text : query.toList = cs) :
    registry.compile query = .ok f := by
  rw [← text] at spells
  obtain ⟨w, derived, yields⟩ := recovers (tokenize query) spells.tokenize
  obtain ⟨u, bound, simplified⟩ := yields_iff.mp yields
  exact (registry.compile_eq_ok_iff_derives query f).mpr ⟨w, u, derived, bound, simplified⟩

end Recovers

/-- A compiled query has a syntax tree that comes to its condition, and spells its words. -/
theorem exists_of_compile {query : String} (compiled : registry.compile query = .ok f) :
    ∃ w, Derives .condition maxNesting (tokenize query) w ∧ registry.Yields w f ∧
      Spells ((tokenize query).map Token.word) query.toList := by
  obtain ⟨w, u, derived, bound, simplified⟩ :=
    (registry.compile_eq_ok_iff_derives query f).mp compiled
  have complete := (Reading.ofQuery_eq_complete_iff query w).mpr derived
  exact ⟨w, derived, yields_iff.mpr ⟨u, bound, simplified⟩,
    (scans_tokenize query).spells (Reader.closed_of_run complete)⟩

/-- A compiled query that opens at most `n` groups at once may stand wherever as many can be opened. -/
theorem recovers_of_compile {query : String} (compiled : registry.compile query = .ok f)
    (opened : ∃ w, Derives .condition n (tokenize query) w) (room : n ≤ m) (limit : n ≤ maxNesting) :
    registry.Recovers .condition m ((tokenize query).map Token.word) f := by
  obtain ⟨w, derived, yields, _⟩ := exists_of_compile compiled
  obtain ⟨v, within⟩ := opened
  cases (within.mono limit).unique derived
  exact recovers_of_derives (within.mono room) yields

end Registry

namespace Spells

variable {ws vs : List Word} {cs ds : List Char}

/-- No token goes on with a parenthesis. -/
theorem apart_closeParen (text rest : List Char) : Apart text (')' :: rest) := by
  refine apart_cons ?_ rest
  unfold glues
  repeat' split
  · rfl
  · decide
  · decide
  · exact Bool.and_false _
  · exact Bool.and_false _
  · rfl

/-- A text in parentheses. -/
theorem enclose (spells : Spells ws cs) :
    Spells (.openParen :: (ws ++ [.closeParen])) ('(' :: (cs ++ [')'])) := by
  have apart : ∀ rest, Apart Word.openParen.text.toList rest := fun _ _ _ => rfl
  have closing : Spells [.closeParen] [')'] := .word Word.isLexeme_closeParen (apart_nil _) .nil
  exact .word Word.isLexeme_openParen (apart _)
    (spells.append (fun text => apart_closeParen text []) closing)

theorem negation (spells : Spells ws cs) :
    Spells (.keyword .not :: ws) ('n' :: 'o' :: 't' :: ' ' :: cs) :=
  .word (Word.isLexeme_keyword .not) (apart_of_isBlank _ (by decide) cs) (.blank (by decide) spells)

/-- Texts with a keyword between them and blanks around it. -/
theorem join (k : Keyword) {before after : List Char} (some : before ≠ []) (some' : after ≠ [])
    (blank : ∀ c ∈ before ++ after, Text.isBlank c = true) (left : Spells ws cs)
    (right : Spells vs ds) :
    Spells (ws ++ .keyword k :: vs) (cs ++ (before ++ (k.spelling.toList ++ (after ++ ds)))) := by
  obtain ⟨c, before, rfl⟩ := List.exists_cons_of_ne_nil some
  obtain ⟨d, after, rfl⟩ := List.exists_cons_of_ne_nil some'
  obtain ⟨blankBefore, blankAfter⟩ := List.forall_mem_append.mp blank
  refine left.append (fun text => apart_of_isBlank text (blankBefore c List.mem_cons_self) _) ?_
  refine Spells.gap blankBefore (.word (Word.isLexeme_keyword k) ?_ (right.gap blankAfter))
  exact apart_of_isBlank _ (blankAfter d List.mem_cons_self) _

theorem join_spaced (k : Keyword) (left : Spells ws cs) (right : Spells vs ds) :
    Spells (ws ++ .keyword k :: vs) (cs ++ ([' '] ++ (k.spelling.toList ++ ([' '] ++ ds)))) :=
  have blank : ∀ c ∈ [' '], Text.isBlank c = true := List.forall_mem_singleton.mpr (by decide)
  left.join k (List.cons_ne_nil _ _) (List.cons_ne_nil _ _)
    (List.forall_mem_append.mpr ⟨blank, blank⟩) right

end Spells

namespace Registry

variable {α : Type} {registry : Registry α} {a b : String} {f g : Condition α}

/-- Queries with "or" between them are compiled to a condition that evaluates as the disjunction of
    their conditions. -/
theorem exists_compile_or (compiledA : registry.compile a = .ok f)
    (compiledB : registry.compile b = .ok g) {before after : String} (some : before ≠ "")
    (some' : after ≠ "") (blank : ∀ c ∈ before.toList ++ after.toList, Text.isBlank c = true) :
    ∃ t, registry.compile s!"{a}{before}or{after}{b}" = .ok t ∧
      ∀ {ρ σ ε : Type} (host : Host α ρ σ ε) (context : Context ρ) (state : σ),
        t.observe host context state = Condition.observe host (.any [f, g]) context state := by
  obtain ⟨wa, derivedA, yieldsA, spellsA⟩ := exists_of_compile compiledA
  obtain ⟨wb, derivedB, yieldsB, spellsB⟩ := exists_of_compile compiledB
  have spells := spellsA.join .or (mt String.toList_eq_nil_iff.mp some)
    (mt String.toList_eq_nil_iff.mp some') blank spellsB
  have text : s!"{a}{before}or{after}{b}".toList =
      a.toList ++ (before.toList ++ ("or".toList ++ (after.toList ++ b.toList))) := by
    simp [toString]
  have words := Spells.tokenize (text ▸ spells)
  generalize s!"{a}{before}or{after}{b}" = query at words
  obtain ⟨ts, t, us, v, v', split, joined, ⟨derived, yields⟩, derived', yields'⟩ :=
    (recovers_of_derives derivedA yieldsA).exists_joined (recovers_of_derives derivedB yieldsB) words
  obtain ⟨vs, rfl⟩ := derived.exists_any
  obtain ⟨vs', rfl⟩ := derived'.exists_any
  obtain ⟨fs, operands, rfl⟩ := yields.exists_disjunction
  obtain ⟨gs, operands', rfl⟩ := yields'.exists_disjunction
  have all := derived.alternatives joined derived'
  rw [← split] at all
  obtain ⟨u, bound, simplified⟩ := yields_iff.mp (operands.append operands').any
  refine ⟨_, (registry.compile_eq_ok_iff_derives query _).mpr ⟨_, u, all, bound, simplified⟩, ?_⟩
  intro ρ σ ε host context state
  unfold Condition.observe Condition.isTrue
  rw [Formula.holds_disjunction_append]

/-- Queries that leave room for two more groups can be put together as texts. In parentheses a query
    stands for its condition, wherever it is negated, and two of them are the operands of a
    conjunction or a disjunction, whose negation is as if it were written with each operand negated.
    Without parentheses a disjunction of queries has another tree, and evaluates in the same way. -/
theorem compile_compounds (registry : Registry α) (a b : String) (f g : Condition α)
    (compiledA : registry.compile a = .ok f) (compiledB : registry.compile b = .ok g)
    (openedA : ∃ w, Derives .condition (maxNesting - 2) (tokenize a) w)
    (openedB : ∃ w, Derives .condition (maxNesting - 2) (tokenize b) w) :
    registry.compile s!"({a})" = .ok f ∧
      registry.compile s!"not ({a})" = .ok f.negate ∧
      registry.compile s!"not (not ({a}))" = .ok f ∧
      registry.compile s!"({a}) and ({b})" = .ok (.all [f, g]) ∧
      registry.compile s!"({a}) or ({b})" = .ok (.any [f, g]) ∧
      registry.compile s!"not (({a}) and ({b}))" = .ok (.any [f.negate, g.negate]) ∧
      registry.compile s!"(not ({a})) or (not ({b}))" = .ok (.any [f.negate, g.negate]) ∧
      registry.compile s!"not (({a}) or ({b}))" = .ok (.all [f.negate, g.negate]) ∧
      registry.compile s!"(not ({a})) and (not ({b}))" = .ok (.all [f.negate, g.negate]) ∧
      ∀ before after : String, before ≠ "" → after ≠ "" →
        (∀ c ∈ before.toList ++ after.toList, Text.isBlank c = true) →
        ∃ t, registry.compile s!"{a}{before}or{after}{b}" = .ok t ∧
          ∀ {ρ σ ε : Type} (host : Host α ρ σ ε) (context : Context ρ) (state : σ),
            t.observe host context state = Condition.observe host (.any [f, g]) context state := by
  obtain ⟨_, _, yieldsA, spellsA⟩ := exists_of_compile compiledA
  obtain ⟨_, _, _, spellsB⟩ := exists_of_compile compiledB
  have groupA : ∀ m, maxNesting - 2 ≤ m → _ := fun m room =>
    (recovers_of_compile compiledA openedA room (Nat.sub_le _ _)).group
  have groupB : ∀ m, maxNesting - 2 ≤ m → _ := fun m room =>
    (recovers_of_compile compiledB openedB room (Nat.sub_le _ _)).group
  -- one group around each query, and one more around both
  have outerA := groupA (maxNesting - 1) (by decide)
  have outerB := groupB (maxNesting - 1) (by decide)
  have innerA := groupA (maxNesting - 2) (Nat.le_refl _)
  have innerB := groupB (maxNesting - 2) (Nat.le_refl _)
  have enclosedA := spellsA.enclose
  have enclosedB := spellsB.enclose
  have deniedA := enclosedA.negation.enclose
  have deniedB := enclosedB.negation.enclose
  refine ⟨?group, ?negated, ?twice, ?both, ?either, ?notBoth, ?eitherNot, ?notEither, ?bothNot, ?plain⟩
  case group =>
    exact (outerA.ofAtom .condition).compile enclosedA (by simp [toString])
  case negated =>
    exact (outerA.negation.ofAtom .condition).compile enclosedA.negation (by simp [toString])
  case twice =>
    have twice := (innerA.negation.ofAtom .condition).group.negation
    rw [yieldsA.negate_negate] at twice
    exact (twice.ofAtom .condition).compile deniedA.negation (by simp [toString])
  case both =>
    exact (outerA.both outerB).condition.compile (enclosedA.join_spaced .and enclosedB)
      (by simp [toString, Keyword.spelling])
  case either =>
    exact (outerA.item.either outerB.item).compile (enclosedA.join_spaced .or enclosedB)
      (by simp [toString, Keyword.spelling])
  case notBoth =>
    exact ((innerA.both innerB).condition.group.negation.ofAtom .condition).compile
      (enclosedA.join_spaced .and enclosedB).enclose.negation (by simp [toString, Keyword.spelling])
  case eitherNot =>
    have deny := (innerA.negation.ofAtom .condition).group
    have deny' := (innerB.negation.ofAtom .condition).group
    exact (deny.item.either deny'.item).compile (deniedA.join_spaced .or deniedB)
      (by simp [toString, Keyword.spelling])
  case notEither =>
    exact ((innerA.item.either innerB.item).group.negation.ofAtom .condition).compile
      (enclosedA.join_spaced .or enclosedB).enclose.negation (by simp [toString, Keyword.spelling])
  case bothNot =>
    have deny := (innerA.negation.ofAtom .condition).group
    have deny' := (innerB.negation.ofAtom .condition).group
    exact (deny.both deny').condition.compile (deniedA.join_spaced .and deniedB)
      (by simp [toString, Keyword.spelling])
  case plain =>
    exact fun before after some some' blank => exists_compile_or compiledA compiledB some some' blank

/-- Two alternatives and a negated call. -/
theorem compile_compounds_alternatives :
    let registry : Registry Bool := { integerFallback := some true, textFallback := some false }
    let a := "a(1)or b(2)"
    let b := "not c('x')"
    let f : Condition Bool :=
      .any [.test (.call ⟨"a", .integer 1, true, false⟩), .test (.call ⟨"b", .integer 2, true, false⟩)]
    let g : Condition Bool := .test (.call ⟨"c", .text "x", false, true⟩)
    registry.compile a = .ok f ∧ registry.compile b = .ok g ∧
      registry.compile s!"not (not ({a}))" = .ok f ∧
      registry.compile s!"({a}) and ({b})" = .ok (.all [f, g]) ∧
      registry.compile s!"not (({a}) and ({b}))" = .ok (.any [f.negate, g.negate]) ∧
      ∃ t, registry.compile s!"{a} or {b}" = .ok t ∧
        ∀ {ρ σ ε : Type} (host : Host Bool ρ σ ε) (context : Context ρ) (state : σ),
          t.observe host context state = Condition.observe host (.any [f, g]) context state := by
  intro registry a b f g
  have compiledA : registry.compile a = .ok f := by cbv
  have compiledB : registry.compile b = .ok g := by cbv
  have tokensA : tokenize a = [⟨.name, "a", 0⟩, ⟨.openParen, "(", 1⟩, ⟨.integer, "1", 2⟩,
      ⟨.closeParen, ")", 3⟩] ++ ⟨.keyword .or, "or", 4⟩ :: [⟨.name, "b", 7⟩, ⟨.openParen, "(", 8⟩,
      ⟨.integer, "2", 9⟩, ⟨.closeParen, ")", 10⟩] := by cbv
  have tokensB : tokenize b = [⟨.keyword .not, "not", 0⟩, ⟨.name, "c", 4⟩, ⟨.openParen, "(", 5⟩,
      ⟨.text, "'x'", 6⟩, ⟨.closeParen, ")", 9⟩] := by cbv
  have openedA : ∃ w, Derives .condition (maxNesting - 2) (tokenize a) w := by
    rw [tokensA]
    exact ⟨_, .or (.condition (.item (.comparison (.call (.mk rfl rfl (isLiteral_iff.mpr rfl) rfl)))))
      rfl (.item (.comparison (.call (.mk rfl rfl (isLiteral_iff.mpr rfl) rfl))))⟩
  have openedB : ∃ w, Derives .condition (maxNesting - 2) (tokenize b) w := by
    rw [tokensB]
    exact ⟨_, .condition (.item (.negation rfl (.comparison (.call (.mk rfl rfl (.text rfl) rfl)))))⟩
  obtain ⟨_, _, twice, both, _, notBoth, _, _, _, plain⟩ :=
    registry.compile_compounds a b f g compiledA compiledB openedA openedB
  have blank : ∀ c ∈ " ".toList, Text.isBlank c = true := List.forall_mem_singleton.mpr (by decide)
  exact ⟨compiledA, compiledB, twice, both, notBoth,
    plain " " " " (by decide) (by decide) (List.forall_mem_append.mpr ⟨blank, blank⟩)⟩

end Registry

end RecordQuery
