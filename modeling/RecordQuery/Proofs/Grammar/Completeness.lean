import RecordQuery.Proofs.Grammar.Derivation

/-!
# Derivations are read

A reader that waits for an operand takes the tokens of any derivation that leaves room for its
groups, and comes out with the derivation's syntax tree put into its innermost level: `reads_of_derives`.
Where an atom ends in a bare call the reader learns that only from the next token, so every
statement is about the tokens and what follows them.
-/

namespace RecordQuery

theorem Condition.calls_test (t : Test Nat) : Condition.calls (.test t) = t.calls := by
  simp only [Condition.calls, Formula.tests, List.flatMap_cons, List.flatMap_nil, List.append_nil]

theorem Condition.calls_all_singleton (w : Written) : Condition.calls (.all [w]) = Condition.calls w := by
  simp only [Condition.calls, Formula.tests, Formula.testsAll, List.append_nil]

theorem Condition.calls_any_singleton (w : Written) : Condition.calls (.any [w]) = Condition.calls w := by
  simp only [Condition.calls, Formula.tests, Formula.testsAll, List.append_nil]

/-- The calls of a conjunction with one more operand. -/
theorem Condition.calls_all_append (ws : List Written) (w : Written) :
    Condition.calls (.all (ws ++ [w])) = Condition.calls (.all ws) ++ Condition.calls w := by
  simp [Condition.calls, Formula.tests, Formula.testsAll_eq_flatMap]

/-- The calls of a disjunction with one more operand. -/
theorem Condition.calls_any_append (ws : List Written) (w : Written) :
    Condition.calls (.any (ws ++ [w])) = Condition.calls (.any ws) ++ Condition.calls w := by
  simp [Condition.calls, Formula.tests, Formula.testsAll_eq_flatMap]

/-- A list of the grammar says which choices it writes down. -/
theorem Grammar.IsList.eq_of_toList_eq {ts : List Token} {c d : Choices}
    (list : IsList ts c.toList) (same : d.toList = c.toList) : d = c := by
  obtain ⟨l, ls, listed⟩ := list.exists_cons
  have member : l ∈ c.toList := by
    rw [listed]
    exact List.mem_cons_self
  refine Choices.eq_of_toList_eq ?_ same
  rw [← Choices.type_of_mem_toList member, Choices.type_of_mem_toList (same ▸ member)]

/-- An atom that no negation stands before is put into its level as it is. -/
theorem Level.pushAtom_of_nots {l : Level} (nots : l.nots = 0) (w : Written) :
    l.pushAtom w = { l with atoms := w :: l.atoms } := by
  rw [pushAtom, nots, Formula.notTimes]

namespace Reader

open Grammar

/-- A run goes on from the reader that a token leaves. -/
theorem run_of_step {r s : Reader} {t : Token} (step : r.step t = .ok s) (length : Nat)
    (ts : List Token) : r.run length (t :: ts) = s.run length ts := by
  rw [run, step]

/-- Nothing in the tokens continues a comparison that could end before them. -/
def EndsComparison (ts : List Token) : Prop :=
  ∀ t ∈ ts.head?, t.kind ≠ .keyword .within ∧ ∀ r, t.kind ≠ .relation r

theorem endsComparison_of_kind {t : Token} {k : TokenKind} (kind : t.kind = k)
    (notWithin : k ≠ .keyword .within) (notRelation : ∀ r, k ≠ .relation r) (ts : List Token) :
    EndsComparison (t :: ts) := by
  rintro u ⟨⟩
  rw [kind]
  exact ⟨notWithin, notRelation⟩

/-- A closing parenthesis ends a comparison. -/
theorem endsComparison_of_closed {ts : List Token} (closed : ∀ t ∈ ts, t.kind = .closeParen) :
    EndsComparison ts := by
  intro t head
  rw [closed t (List.mem_of_mem_head? head)]
  exact ⟨by simp, fun _ => by simp⟩

/-- After a call that starts a comparison, other tokens find the comparison complete. -/
theorem run_afterCall (r : Reader) (c : Call Nat) (length : Nat) {ts : List Token}
    (ends : EndsComparison ts) :
    ({ r with awaiting := .afterCall c } : Reader).run length ts =
      (r.atomDone (.test (.call c))).run length ts := by
  cases ts with
  | nil =>
    obtain ⟨level, outer, awaiting, calls⟩ := r
    cases outer <;> rfl
  | cons t ts =>
    obtain ⟨notWithin, notRelation⟩ := ends t rfl
    have step : ({ r with awaiting := .afterCall c } : Reader).step t =
        ({ r with awaiting := .afterCall c }.atomDone (.test (.call c))).connect t := by
      simp only [Reader.step]
    rw [run, step]
    rfl

/-- The tokens of a call, at a place where a name starts one. -/
theorem run_isCall {ts : List Token} {c : Call Nat} (call : IsCall ts c) {r : Reader}
    {role : CallRole}
    (starts : ∀ t : Token, t.kind = .name →
      r.step t = .ok { r with awaiting := .callOpening role t.text t.offset })
    (length : Nat) (rest : List Token) :
    r.run length (ts ++ rest) = (r.callDone role c).run length rest := by
  cases call with
  | @mk name opening argument closing l named opened argued closed =>
    let r₁ : Reader := { r with awaiting := .callOpening role name.text name.offset }
    let r₂ : Reader := { r with awaiting := .callArgument role name.text name.offset }
    let r₃ : Reader := { r with awaiting := .callClosing role name.text name.offset l }
    have step₁ : r₁.step opening = .ok r₂ := by simp only [r₁, r₂, step, opened]
    have step₂ : r₂.step argument = .ok r₃ := by
      simp only [r₂, r₃, step, isLiteral_iff.mp argued]
      rfl
    have step₃ : r₃.step closing = .ok (r₃.callDone role ⟨name.text, l, name.offset, false⟩) := by
      simp only [r₃, step, closed]
    have done : r₃.callDone role ⟨name.text, l, name.offset, false⟩ =
        r.callDone role ⟨name.text, l, name.offset, false⟩ := by
      cases role <;> rfl
    simp only [List.cons_append, List.nil_append]
    rw [run_of_step (starts name named), run_of_step step₁, run_of_step step₂, run_of_step step₃,
      done]

/-- The literals of a list, after its parenthesis. -/
theorem run_isList {ts : List Token} {ls : List Literal} (list : IsList ts ls) (r : Reader)
    (left : Call Nat) (length : Nat) (rest : List Token) :
    ∃ choices : Choices, choices.toList = ls ∧
      ({ r with awaiting := .choice left none } : Reader).run length (ts ++ rest) =
        ({ r with awaiting := .afterChoice left choices } : Reader).run length rest := by
  induction list generalizing rest with
  | @literal t l first =>
    refine ⟨.singleton l, Choices.toList_singleton l, run_of_step ?_ length rest⟩
    simp only [step, choiceDone, isLiteral_iff.mp first]
    rfl
  | @comma ts c t l m ls list separated next sameType ih =>
    obtain ⟨choices, listed, reads⟩ := ih (c :: t :: rest)
    have type : m.type = choices.type :=
      sameType.trans (Choices.type_of_mem_toList (by rw [listed]; exact List.mem_cons_self))
    obtain ⟨longer, pushed⟩ := Option.isSome_iff_exists.mp (Choices.push?_isSome_iff.mpr type)
    refine ⟨longer, by rw [Choices.toList_push pushed, listed], ?_⟩
    rw [List.append_assoc, List.cons_append, List.cons_append, List.nil_append, reads]
    have step₁ : ({ r with awaiting := .afterChoice left choices } : Reader).step c =
        .ok { r with awaiting := .choice left (some choices) } := by
      simp only [step, separated]
    have step₂ : ({ r with awaiting := .choice left (some choices) } : Reader).step t =
        .ok { r with awaiting := .afterChoice left longer } := by
      simp only [step, choiceDone, isLiteral_iff.mp next, bind, Except.bind, pushed]
      rfl
    rw [run_of_step step₁, run_of_step step₂]

/-- The tokens of a comparison. -/
theorem run_isComparison {ts : List Token} {t : Test Nat} (test : IsComparison ts t) (r : Reader)
    (await : r.awaiting = .operand) (length : Nat) {rest : List Token}
    (ends : EndsComparison rest) :
    r.run length (ts ++ rest) =
      ({ r with calls := t.calls.reverse ++ r.calls }.atomDone (.test t)).run length rest := by
  have leads : ∀ t : Token, t.kind = .name →
      r.step t = .ok { r with awaiting := .callOpening .leading t.text t.offset } := by
    intro t named
    simp only [step, await, named]
  cases test with
  | @call ts c left =>
    rw [run_isCall left leads]
    exact run_afterCall { r with calls := c :: r.calls } c length ends
  | @compare ts c o t relation l left related right =>
    rw [List.append_assoc, run_isCall left leads]
    have step₁ : (r.callDone .leading c).step o =
        .ok { r with awaiting := .comparand c relation, calls := c :: r.calls } := by
      simp only [callDone, step, related]
    have step₂ : ({ r with awaiting := .comparand c relation, calls := c :: r.calls } :
        Reader).step t =
          .ok ({ r with calls := c :: r.calls }.atomDone (.test (.compare c relation l))) := by
      simp only [step, isLiteral_iff.mp right]
      split
      · next named => cases right.kind <;> simp_all
      · rfl
    simp only [List.cons_append, List.nil_append]
    rw [run_of_step step₁, run_of_step step₂]
    rfl
  | @compareCalls ts us c d o relation left related right =>
    rw [List.append_assoc, run_isCall left leads, List.cons_append]
    have step : (r.callDone .leading c).step o =
        .ok { r with awaiting := .comparand c relation, calls := c :: r.calls } := by
      simp only [callDone, step, related]
    have starts : ∀ t : Token, t.kind = .name →
        ({ r with awaiting := .comparand c relation, calls := c :: r.calls } : Reader).step t =
          .ok { r with awaiting := .callOpening (.compared c relation) t.text t.offset,
                       calls := c :: r.calls } := by
      intro t named
      simp only [Reader.step, named]
    rw [run_of_step step, run_isCall right starts]
    rfl
  | @member ts us c i opening closing choices left within opened list closed =>
    obtain ⟨others, listed, reads⟩ := run_isList list { r with calls := c :: r.calls } c length
      (closing :: rest)
    have same : others = choices := list.eq_of_toList_eq listed
    subst same
    have step₁ : (r.callDone .leading c).step i =
        .ok { r with awaiting := .collection c, calls := c :: r.calls } := by
      simp only [callDone, step, within]
    have step₂ : ({ r with awaiting := .collection c, calls := c :: r.calls } : Reader).step opening =
        .ok { r with awaiting := .choice c none, calls := c :: r.calls } := by
      simp only [step, opened]
    have step₃ : ({ r with awaiting := .afterChoice c others, calls := c :: r.calls } :
        Reader).step closing =
          .ok ({ r with calls := c :: r.calls }.atomDone (.test (.member c others false))) := by
      simp only [step, closed]
      rfl
    simp only [List.append_assoc, List.cons_append, List.nil_append]
    rw [run_isCall left leads, run_of_step step₁, run_of_step step₂, reads, run_of_step step₃]
    rfl
  | @memberCall ts us c d i left within right =>
    rw [List.append_assoc, run_isCall left leads, List.cons_append]
    have step : (r.callDone .leading c).step i =
        .ok { r with awaiting := .collection c, calls := c :: r.calls } := by
      simp only [callDone, step, within]
    have starts : ∀ t : Token, t.kind = .name →
        ({ r with awaiting := .collection c, calls := c :: r.calls } : Reader).step t =
          .ok { r with awaiting := .callOpening (.searched c) t.text t.offset,
                       calls := c :: r.calls } := by
      intro t named
      simp only [Reader.step, named]
    rw [run_of_step step, run_isCall right starts]
    rfl

/-- What a level becomes when a phrase with a given syntax tree is read into it. An item or a
    condition stands where no negation is pending, a condition also where no atom has been read. -/
def Extended (l : Level) (w : Written) : Phrase → Level → Prop
  | .atom, m => m = l.pushAtom w
  | .item, m => l.nots = 0 → ∃ ws, w = .all ws ∧ m = { l with atoms := ws.reverse ++ l.atoms }
  | .condition, m => l.atoms = [] → l.nots = 0 →
    ∃ ws, w = .any ws ∧ m.nots = 0 ∧ m.closeItem.items = ws.reverse ++ l.items

/-- A reader that waits for an operand and has room for `n` more groups takes the tokens of a phrase,
    and has put the phrase's syntax tree into its level then. -/
def Reads (p : Phrase) (n : Nat) (ts : List Token) (w : Written) : Prop :=
  ∀ r : Reader, r.awaiting = .operand → r.outer.length + n ≤ maxNesting →
    ∀ (length : Nat) (rest : List Token), EndsComparison rest →
      ∃ l, Extended r.level w p l ∧
        r.run length (ts ++ rest) =
          ({ r with level := l, awaiting := .connective,
                    calls := (Condition.calls w).reverse ++ r.calls } : Reader).run length rest

namespace Reads

variable {n : Nat} {ts us : List Token} {t : Token} {w : Written} {ws : List Written}

theorem comparison {t : Test Nat} (test : IsComparison ts t) : Reads .atom n ts (.test t) := by
  intro r await room length rest ends
  refine ⟨r.level.pushAtom (.test t), rfl, ?_⟩
  rw [run_isComparison test r await length ends, Condition.calls_test]
  rfl

theorem negation (negated : t.kind = .keyword .not) (operand : Reads .atom n ts w) :
    Reads .atom n (t :: ts) (.not w) := by
  intro r await room length rest ends
  obtain ⟨l, extended, reads⟩ := operand { r with level := r.level.pushNot } await room length rest
    ends
  refine ⟨l, extended, ?_⟩
  have step : r.step t = .ok { r with level := r.level.pushNot } := by
    simp only [Reader.step, await, negated]
  rw [List.cons_append, run_of_step step, reads]
  rfl

/-- What is inside a group is read on a level of its own, which becomes an atom of the one outside. -/
theorem group {opening closing : Token} (opened : opening.kind = .openParen)
    (inside : Reads .condition n ts w) (closed : closing.kind = .closeParen) :
    Reads .atom (n + 1) (opening :: ts ++ [closing]) w := by
  intro r await room length rest ends
  have opens : r.step opening = .ok { r with level := {}, outer := r.level :: r.outer } := by
    have free : r.outer.length < maxNesting := by omega
    simp only [step, await, opened, if_pos free]
  have more : (r.level :: r.outer).length + n ≤ maxNesting := by
    rw [List.length_cons]
    omega
  obtain ⟨l, extended, reads⟩ := inside { r with level := {}, outer := r.level :: r.outer } await
    more length (closing :: rest) (endsComparison_of_kind closed (by decide) (fun _ => nofun) rest)
  obtain ⟨ws, rfl, nots, items⟩ := extended rfl rfl
  refine ⟨r.level.pushAtom (.any ws), rfl, ?_⟩
  have tree : l.condition = .any ws := by
    rw [Level.condition, items, List.append_nil, List.reverse_reverse]
  simp only [List.cons_append, List.append_assoc, List.nil_append]
  rw [run_of_step opens, reads]
  refine run_of_step ?_ length rest
  simp only [step, connect, closed, tree]
  rfl

theorem item (first : Reads .atom n ts w) : Reads .item n ts (.all [w]) := by
  intro r await room length rest ends
  obtain ⟨l, extended, reads⟩ := first r await room length rest ends
  refine ⟨l, fun nots => ⟨[w], rfl, ?_⟩, ?_⟩
  · rw [extended, Level.pushAtom_of_nots nots, List.reverse_singleton, List.singleton_append]
  · rw [reads, Condition.calls_all_singleton]

theorem and (before : Reads .item n ts (.all ws)) (joined : t.kind = .keyword .and)
    (last : Reads .atom n us w) : Reads .item n (ts ++ t :: us) (.all (ws ++ [w])) := by
  intro r await room length rest ends
  obtain ⟨l, extended, reads⟩ := before r await room length (t :: (us ++ rest))
    (endsComparison_of_kind joined (by decide) (fun _ => nofun) (us ++ rest))
  obtain ⟨m, extendedLast, readsLast⟩ := last
    { r with level := l, awaiting := .operand,
             calls := (Condition.calls (.all ws)).reverse ++ r.calls } rfl room length rest ends
  refine ⟨m, fun nots => ?_, ?_⟩
  · obtain ⟨vs, same, level⟩ := extended nots
    cases same
    have closed : l.nots = 0 := by rw [level]; exact nots
    refine ⟨ws ++ [w], rfl, ?_⟩
    rw [extendedLast, Level.pushAtom_of_nots closed, level, List.reverse_append,
      List.reverse_singleton, List.singleton_append, List.cons_append]
  · rw [List.append_assoc, List.cons_append, reads, run_of_step, readsLast,
      Condition.calls_all_append, List.reverse_append, List.append_assoc]
    simp only [step, connect, joined]

theorem condition (first : Reads .item n ts w) : Reads .condition n ts (.any [w]) := by
  intro r await room length rest ends
  obtain ⟨l, extended, reads⟩ := first r await room length rest ends
  refine ⟨l, fun empty nots => ⟨[w], rfl, ?_⟩, ?_⟩
  · obtain ⟨vs, rfl, rfl⟩ := extended nots
    refine ⟨nots, ?_⟩
    simp only [Level.closeItem, empty, List.append_nil, List.reverse_reverse,
      List.reverse_singleton, List.singleton_append]
  · rw [reads, Condition.calls_any_singleton]

/-- The word closes the item before it, so that the next one begins on an empty level. -/
theorem or (before : Reads .condition n ts (.any ws)) (joined : t.kind = .keyword .or)
    (last : Reads .item n us w) : Reads .condition n (ts ++ t :: us) (.any (ws ++ [w])) := by
  intro r await room length rest ends
  obtain ⟨l, extended, reads⟩ := before r await room length (t :: (us ++ rest))
    (endsComparison_of_kind joined (by decide) (fun _ => nofun) (us ++ rest))
  obtain ⟨m, extendedLast, readsLast⟩ := last
    { r with level := l.closeItem, awaiting := .operand,
             calls := (Condition.calls (.any ws)).reverse ++ r.calls } rfl room length rest ends
  refine ⟨m, fun empty nots => ?_, ?_⟩
  · obtain ⟨vs, same, closed, items⟩ := extended empty nots
    cases same
    obtain ⟨us, rfl, rfl⟩ := extendedLast closed
    refine ⟨ws ++ [.all us], rfl, closed, ?_⟩
    have atoms : l.closeItem.atoms = [] := rfl
    rw [Level.closeItem, atoms, List.append_nil, List.reverse_reverse, items,
      List.reverse_append, List.reverse_singleton, List.singleton_append, List.cons_append]
  · rw [List.append_assoc, List.cons_append, reads, run_of_step, readsLast,
      Condition.calls_any_append, List.reverse_append, List.append_assoc]
    simp only [step, connect, joined]

end Reads

/-- Every phrase of the grammar is read. -/
theorem reads_of_derives {p : Phrase} {n : Nat} {ts : List Token} {w : Written}
    (derived : Derives p n ts w) : Reads p n ts w := by
  induction derived with
  | comparison test => exact .comparison test
  | negation negated _ operand => exact .negation negated operand
  | group opened _ closed inside => exact .group opened inside closed
  | item _ first => exact .item first
  | and _ joined _ before last => exact .and before joined last
  | condition _ first => exact .condition first
  | or _ joined _ before last => exact .or before joined last

/-- A query that the grammar derives with no more groups open at once than may be is read as its
    syntax tree. -/
theorem run_of_derives {ts : List Token} {w : Written}
    (derived : Derives .condition maxNesting ts w) (length : Nat) :
    ({} : Reader).run length ts = .complete w := by
  have noMore : EndsComparison [] := nofun
  obtain ⟨l, extended, reads⟩ := reads_of_derives derived {} rfl (by decide) length [] noMore
  obtain ⟨ws, rfl, nots, items⟩ := extended rfl rfl
  rw [List.append_nil] at reads
  rw [reads]
  simp only [run, finish, Level.condition, items, List.append_nil, List.reverse_reverse]

end Reader

end RecordQuery
