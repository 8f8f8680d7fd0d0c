import RecordQuery.Proofs.Grammar.Moves

/-!
# Read queries are derived

What a reader holds between two tokens tells apart the tokens that it has taken: the open groups,
the complete items and atoms of each, the negations that wait for an atom, and the piece of a
comparison that has been read. `Reader.Covers` says so. It holds at the start, a token keeps it
(`covers_step`), and a reader that covers a whole query has a derivation of it.
-/

namespace RecordQuery.Grammar

/-- Phrases each of which is followed by a keyword, their syntax trees listed latest first. -/
inductive Joined (p : Phrase) (k : Keyword) (n : Nat) : List Token → List Written → Prop
  | nil : Joined p k n [] []
  | snoc {ts us : List Token} {t : Token} {ws : List Written} {w : Written}
      (before : Joined p k n ts ws) (phrase : Derives p n us w) (joined : t.kind = .keyword k) :
      Joined p k n (ts ++ us ++ [t]) (w :: ws)

/-- Atoms with an "and" after each of them, and one more atom, are an item. -/
theorem Joined.item {n : Nat} {ts us : List Token} {ws : List Written} {w : Written}
    (before : Joined .atom .and n ts ws) (last : Derives .atom n us w) :
    Derives .item n (ts ++ us) (.all (w :: ws).reverse) := by
  induction before generalizing us w with
  | nil => exact .item last
  | @snoc ts vs t ws v before phrase joined ih =>
    have longer := (ih phrase).and joined last
    rwa [List.append_assoc, List.singleton_append, List.reverse_cons]

/-- Items with an "or" after each of them, and one more item, are a condition. -/
theorem Joined.condition {n : Nat} {ts us : List Token} {ws : List Written} {w : Written}
    (before : Joined .item .or n ts ws) (last : Derives .item n us w) :
    Derives .condition n (ts ++ us) (.any (w :: ws).reverse) := by
  induction before generalizing us w with
  | nil => exact .condition last
  | @snoc ts vs t ws v before phrase joined ih =>
    have longer := (ih phrase).or joined last
    rwa [List.append_assoc, List.singleton_append, List.reverse_cons]

/-- A derivation under some more negations. -/
theorem Derives.negations {n m : Nat} {ts us : List Token} {w : Written}
    (negated : ∀ t ∈ ts, t.kind = .keyword .not) (count : ts.length = m)
    (operand : Derives .atom n us w) : Derives .atom n (ts ++ us) (Formula.notTimes m w) := by
  induction ts generalizing m w with
  | nil =>
    subst count
    exact operand
  | cons t ts ih =>
    subst count
    have inner := ih (fun u member => negated u (List.mem_cons_of_mem t member)) rfl operand
    rw [List.length_cons, Formula.notTimes, Formula.notTimes_not, List.cons_append]
    exact .negation (negated t List.mem_cons_self) inner

/-- A list with one more literal, which has the type of the list. -/
theorem IsList.snoc {ts : List Token} {choices : Choices} {c t : Token} {l : Literal}
    (list : IsList ts choices.toList) (separated : c.kind = .comma) (next : IsLiteral t l)
    (sameType : l.type = choices.type) : IsList (ts ++ [c, t]) (choices.toList ++ [l]) := by
  obtain ⟨m, ms, listed⟩ := list.exists_cons
  have member : m ∈ choices.toList := by
    rw [listed]
    exact List.mem_cons_self
  rw [listed] at list ⊢
  exact list.comma separated next (sameType.trans (Choices.type_of_mem_toList member).symm)

end RecordQuery.Grammar

namespace RecordQuery

open Grammar

/-- The tokens of a group that waits for its next atom: the items and the atoms before it, and the
    negations that it stands under. -/
def Level.Covers (n : Nat) (l : Level) (ts : List Token) : Prop :=
  ∃ is as ns, ts = is ++ as ++ ns ∧ Joined .item .or n is l.items ∧
    Joined .atom .and n as l.atoms ∧ (∀ t ∈ ns, t.kind = .keyword .not) ∧ ns.length = l.nots

/-- The tokens of a group whose last atom is complete. -/
def Level.Ends (n : Nat) (l : Level) (ts : List Token) : Prop :=
  l.nots = 0 ∧ ∃ is as us ws w, ts = is ++ as ++ us ∧ l.atoms = w :: ws ∧
    Joined .item .or n is l.items ∧ Joined .atom .and n as ws ∧ Derives .atom n us w

namespace Level

variable {n : Nat} {l : Level} {ts us : List Token} {t : Token}

theorem covers_empty : Covers n {} [] :=
  ⟨[], [], [], rfl, .nil, .nil, nofun, rfl⟩

theorem Covers.pushNot (covers : l.Covers n ts) (negated : t.kind = .keyword .not) :
    l.pushNot.Covers n (ts ++ [t]) := by
  obtain ⟨is, as, ns, rfl, items, atoms, nots, count⟩ := covers
  refine ⟨is, as, ns ++ [t], by simp only [List.append_assoc], items, atoms, ?_, ?_⟩
  · intro u member
    rcases List.mem_append.mp member with member | member
    · exact nots u member
    · rw [List.mem_singleton.mp member]
      exact negated
  · rw [List.length_append, count, List.length_singleton, Level.pushNot]

theorem Covers.pushAtom {w : Written} (covers : l.Covers n ts) (atom : Derives .atom n us w) :
    (l.pushAtom w).Ends n (ts ++ us) := by
  obtain ⟨is, as, ns, rfl, items, atoms, nots, count⟩ := covers
  exact ⟨rfl, is, as, ns ++ us, l.atoms, _, by simp only [List.append_assoc], rfl, items, atoms,
    .negations nots count atom⟩

theorem Ends.and (ends : l.Ends n ts) (joined : t.kind = .keyword .and) :
    l.Covers n (ts ++ [t]) := by
  obtain ⟨nots, is, as, us, ws, w, rfl, last, items, atoms, atom⟩ := ends
  refine ⟨is, as ++ us ++ [t], [], by simp only [List.append_assoc, List.append_nil], items, ?_,
    nofun, nots.symm⟩
  rw [last]
  exact .snoc atoms atom joined

theorem Ends.or (ends : l.Ends n ts) (joined : t.kind = .keyword .or) :
    l.closeItem.Covers n (ts ++ [t]) := by
  obtain ⟨nots, is, as, us, ws, w, rfl, last, items, atoms, atom⟩ := ends
  refine ⟨is ++ (as ++ us) ++ [t], [], [], by simp only [List.append_assoc, List.append_nil],
    ?_, .nil, nofun, nots.symm⟩
  rw [closeItem, last]
  exact .snoc items (atoms.item atom) joined

theorem Ends.condition (ends : l.Ends n ts) : Derives .condition n ts l.condition := by
  obtain ⟨nots, is, as, us, ws, w, rfl, last, items, atoms, atom⟩ := ends
  rw [Level.condition, closeItem, last, List.append_assoc]
  exact items.condition (atoms.item atom)

end Level

/-- The tokens of a comparison before a call that is read for a role. -/
inductive CallRole.Covers : CallRole → List Token → Prop
  | leading : Covers .leading []
  | compared {ts : List Token} {c : Call Nat} {t : Token} {r : Relation} (left : IsCall ts c)
      (related : t.kind = .relation r) : Covers (.compared c r) (ts ++ [t])
  | searched {ts : List Token} {c : Call Nat} {t : Token} (left : IsCall ts c)
      (within : t.kind = .keyword .within) : Covers (.searched c) (ts ++ [t])

/-- The tokens of a comparison that has been read in part, by what may come next. -/
inductive Awaiting.Covers : Awaiting → List Token → Prop
  | operand : Covers .operand []
  | callOpening {role : CallRole} {ts : List Token} {t : Token} (before : role.Covers ts)
      (named : t.kind = .name) : Covers (.callOpening role t.text t.offset) (ts ++ [t])
  | callArgument {role : CallRole} {name : String} {offset : Nat} {ts : List Token} {t : Token}
      (before : Covers (.callOpening role name offset) ts) (opened : t.kind = .openParen) :
      Covers (.callArgument role name offset) (ts ++ [t])
  | callClosing {role : CallRole} {name : String} {offset : Nat} {l : Literal} {ts : List Token}
      {t : Token} (before : Covers (.callArgument role name offset) ts) (argued : IsLiteral t l) :
      Covers (.callClosing role name offset l) (ts ++ [t])
  | afterCall {ts : List Token} {c : Call Nat} (left : IsCall ts c) : Covers (.afterCall c) ts
  | comparand {ts : List Token} {c : Call Nat} {t : Token} {r : Relation} (left : IsCall ts c)
      (related : t.kind = .relation r) : Covers (.comparand c r) (ts ++ [t])
  | collection {ts : List Token} {c : Call Nat} {t : Token} (left : IsCall ts c)
      (within : t.kind = .keyword .within) : Covers (.collection c) (ts ++ [t])
  | firstChoice {ts : List Token} {c : Call Nat} {t : Token} (before : Covers (.collection c) ts)
      (opened : t.kind = .openParen) : Covers (.choice c none) (ts ++ [t])
  | nextChoice {ts : List Token} {c : Call Nat} {t : Token} {choices : Choices}
      (before : Covers (.afterChoice c choices) ts) (separated : t.kind = .comma) :
      Covers (.choice c (some choices)) (ts ++ [t])
  | afterChoice {ts us : List Token} {c : Call Nat} {i t : Token} {choices : Choices}
      (left : IsCall ts c) (within : i.kind = .keyword .within) (opened : t.kind = .openParen)
      (list : IsList us choices.toList) : Covers (.afterChoice c choices) (ts ++ i :: t :: us)

/-- The tokens before a call's name, by what the call is read for. -/
theorem Awaiting.Covers.role {a : Awaiting} {role : CallRole} {ts : List Token} (pending : a.Covers ts)
    (starts : a.callRole? = some role) : role.Covers ts := by
  cases pending with
  | operand =>
    cases starts
    exact .leading
  | comparand left related =>
    cases starts
    exact .compared left related
  | collection left within =>
    cases starts
    exact .searched left within
  | callOpening | callArgument | callClosing | afterCall | firstChoice | nextChoice | afterChoice =>
    cases starts

/-- The tokens of the groups that are open around the innermost one, and their parentheses. -/
def coversOuter : List Level → List Token → Prop
  | [], ts => ts = []
  | l :: outer, ts => ∃ us vs t, ts = us ++ vs ++ [t] ∧ coversOuter outer us ∧
    l.Covers (maxNesting - outer.length) vs ∧ t.kind = .openParen ∧ outer.length < maxNesting

/-- The tokens that a reader has taken. -/
inductive Reader.Covers (r : Reader) : List Token → Prop
  | comparing {us vs ws : List Token} (outer : coversOuter r.outer us)
      (level : r.level.Covers (maxNesting - r.outer.length) vs) (pending : r.awaiting.Covers ws) :
      Covers r (us ++ vs ++ ws)
  | connecting {us vs : List Token} (await : r.awaiting = .connective)
      (outer : coversOuter r.outer us) (level : r.level.Ends (maxNesting - r.outer.length) vs) :
      Covers r (us ++ vs)

namespace Reader

variable {r q s : Reader} {ts us vs ws : List Token} {t : Token}

theorem covers_empty : Covers {} [] := by
  have parts : Covers {} ([] ++ [] ++ []) := .comparing rfl Level.covers_empty .operand
  exact parts

/-- A comparison that is complete is the reader's next atom. -/
theorem covers_atomDone {w : Written} (outer : coversOuter r.outer us)
    (level : r.level.Covers (maxNesting - r.outer.length) vs)
    (atom : Derives .atom (maxNesting - r.outer.length) ws w) :
    (r.atomDone w).Covers (us ++ vs ++ ws) := by
  rw [List.append_assoc]
  exact .connecting rfl outer (level.pushAtom atom)

/-- A comparison that is not complete goes on. -/
theorem covers_awaiting {a : Awaiting} (outer : coversOuter r.outer us)
    (level : r.level.Covers (maxNesting - r.outer.length) vs) (pending : a.Covers ws) :
    Covers { r with awaiting := a } (us ++ vs ++ ws) :=
  .comparing outer level pending

/-- The parts of a reader that is in a comparison. -/
theorem Covers.parts {a : Awaiting} (covers : r.Covers ts) (await : r.awaiting = a)
    (going : a ≠ .connective) :
    ∃ us vs ws, ts = us ++ vs ++ ws ∧ coversOuter r.outer us ∧
      r.level.Covers (maxNesting - r.outer.length) vs ∧ a.Covers ws := by
  cases covers with
  | comparing outer level pending => exact ⟨_, _, _, rfl, outer, level, await ▸ pending⟩
  | connecting complete => exact absurd (await.symm.trans complete) going

/-- The parts of a reader whose atom is complete. -/
theorem Covers.rests (covers : r.Covers ts) (rests : r.Rests q) :
    ∃ us vs, ts = us ++ vs ∧ coversOuter q.outer us ∧
      q.level.Ends (maxNesting - q.outer.length) vs := by
  cases rests with
  | connective await =>
    cases covers with
    | connecting _ outer level => exact ⟨_, _, rfl, outer, level⟩
    | comparing _ _ pending =>
      rw [await] at pending
      cases pending
  | bareCall await =>
    obtain ⟨us, vs, ws, rfl, outer, level, pending⟩ := covers.parts await (by simp)
    cases pending with
    | afterCall left =>
      exact ⟨us, vs ++ ws, by rw [List.append_assoc], outer, level.pushAtom (.comparison (.call left))⟩

/-- A group that is closed is an atom of the group around it. -/
theorem covers_groupClosing {l : Level} {outer : List Level} (nested : q.outer = l :: outer)
    (outside : coversOuter q.outer us) (level : q.level.Ends (maxNesting - q.outer.length) vs)
    (closed : t.kind = .closeParen) :
    ({ q with level := l, outer := outer }.atomDone q.level.condition).Covers (us ++ vs ++ [t]) := by
  rw [nested] at outside level
  obtain ⟨us, ls, opening, rfl, outside, before, opened, bounded⟩ := outside
  have room : maxNesting - outer.length = maxNesting - (l :: outer).length + 1 := by
    rw [List.length_cons]
    omega
  have atom := Derives.group opened level.condition closed
  rw [← room] at atom
  have taken := covers_atomDone (r := { q with level := l, outer := outer }) outside before atom
  simpa only [List.append_assoc, List.cons_append, List.nil_append] using taken

/-- The parenthesis that closes a call puts it to the use that it was read for. -/
theorem covers_callDone {role : CallRole} {c : Call Nat} (outer : coversOuter r.outer us)
    (level : r.level.Covers (maxNesting - r.outer.length) vs) (before : role.Covers ts)
    (call : IsCall ws c) : (r.callDone role c).Covers (us ++ vs ++ (ts ++ ws)) := by
  let q : Reader := { r with calls := c :: r.calls }
  cases before with
  | leading => exact covers_awaiting (r := q) outer level (.afterCall call)
  | @compared ts left t relation isLeft related =>
    rw [List.append_assoc ts, List.singleton_append]
    exact covers_atomDone (r := q) outer level (.comparison (.compareCalls isLeft related call))
  | @searched ts left t isLeft within =>
    rw [List.append_assoc ts, List.singleton_append]
    exact covers_atomDone (r := q) outer level (.comparison (.memberCall isLeft within call))

/-- A token keeps what the reader covers, and is covered itself. -/
theorem covers_step (covers : r.Covers ts) (step : r.step t = .ok s) : s.Covers (ts ++ [t]) := by
  -- each move says what is awaited, and so what the pending tokens are
  cases moves_of_step step with
  | negation await negated =>
    obtain ⟨us, vs, ws, rfl, outer, level, pending⟩ := covers.parts await (by simp)
    cases pending
    have taken := Covers.comparing (r := { r with level := r.level.pushNot, awaiting := .operand })
      outer (level.pushNot negated) .operand
    simpa only [List.append_assoc, List.append_nil] using taken
  | groupOpening await opened free =>
    obtain ⟨us, vs, ws, rfl, outer, level, pending⟩ := covers.parts await (by simp)
    cases pending
    have outside : coversOuter (r.level :: r.outer) (us ++ vs ++ [t]) :=
      ⟨us, vs, t, rfl, outer, level, opened, free⟩
    have taken := Covers.comparing
      (r := { r with level := {}, outer := r.level :: r.outer, awaiting := .operand })
      outside Level.covers_empty .operand
    simpa only [List.append_assoc, List.append_nil] using taken
  | callName starts named =>
    obtain ⟨us, vs, ws, rfl, outer, level, pending⟩ :=
      covers.parts rfl (by intro complete; rw [complete] at starts; cases starts)
    rw [List.append_assoc]
    exact covers_awaiting outer level (.callOpening (pending.role starts) named)
  | callOpening await opened =>
    obtain ⟨us, vs, ws, rfl, outer, level, pending⟩ := covers.parts await (by simp)
    rw [List.append_assoc]
    exact covers_awaiting outer level (.callArgument pending opened)
  | callArgument await argued =>
    obtain ⟨us, vs, ws, rfl, outer, level, pending⟩ := covers.parts await (by simp)
    rw [List.append_assoc]
    exact covers_awaiting outer level (.callClosing pending argued)
  | callClosing await closed =>
    obtain ⟨us, vs, ws, rfl, outer, level, pending⟩ := covers.parts await (by simp)
    cases pending with
    | callClosing before argued =>
      cases before with
      | callArgument before opened =>
        cases before with
        | callOpening before named =>
          have taken := covers_callDone outer level before (.mk named opened argued closed)
          simpa only [List.append_assoc, List.cons_append, List.nil_append] using taken
  | relation await related =>
    obtain ⟨us, vs, ws, rfl, outer, level, pending⟩ := covers.parts await (by simp)
    cases pending with
    | afterCall left =>
      rw [List.append_assoc]
      exact covers_awaiting outer level (.comparand left related)
  | within await within =>
    obtain ⟨us, vs, ws, rfl, outer, level, pending⟩ := covers.parts await (by simp)
    cases pending with
    | afterCall left =>
      rw [List.append_assoc]
      exact covers_awaiting outer level (.collection left within)
  | comparand await right =>
    obtain ⟨us, vs, ws, rfl, outer, level, pending⟩ := covers.parts await (by simp)
    cases pending with
    | comparand left related =>
      have taken := covers_atomDone outer level (.comparison (.compare left related right))
      simpa only [List.append_assoc, List.cons_append, List.nil_append] using taken
  | listOpening await opened =>
    obtain ⟨us, vs, ws, rfl, outer, level, pending⟩ := covers.parts await (by simp)
    rw [List.append_assoc]
    exact covers_awaiting outer level (.firstChoice pending opened)
  | @firstChoice c l await literal =>
    obtain ⟨us, vs, ws, rfl, outer, level, pending⟩ := covers.parts await (by simp)
    cases pending with
    | firstChoice before opened =>
      cases before with
      | collection left within =>
        have list : IsList [t] (Choices.singleton l).toList := by
          rw [Choices.toList_singleton]
          exact .literal literal
        have taken := covers_awaiting outer level (.afterChoice left within opened list)
        simpa only [List.append_assoc, List.cons_append, List.nil_append] using taken
  | nextChoice await literal pushed =>
    obtain ⟨us, vs, ws, rfl, outer, level, pending⟩ := covers.parts await (by simp)
    cases pending with
    | nextChoice before separated =>
      cases before with
      | afterChoice left within opened list =>
        have sameType := Choices.push?_isSome_iff.mp (Option.isSome_of_eq_some pushed)
        have more := list.snoc separated literal sameType
        rw [← Choices.toList_push pushed] at more
        have taken := covers_awaiting outer level (.afterChoice left within opened more)
        simpa only [List.append_assoc, List.cons_append, List.nil_append] using taken
  | comma await separated =>
    obtain ⟨us, vs, ws, rfl, outer, level, pending⟩ := covers.parts await (by simp)
    rw [List.append_assoc]
    exact covers_awaiting outer level (.nextChoice pending separated)
  | listClosing await closed =>
    obtain ⟨us, vs, ws, rfl, outer, level, pending⟩ := covers.parts await (by simp)
    cases pending with
    | afterChoice left within opened list =>
      rw [List.append_assoc]
      exact covers_atomDone outer level (.comparison (.member left within opened list closed))
  | @and q rests joined =>
    obtain ⟨us, vs, rfl, outer, level⟩ := covers.rests rests
    have taken := Covers.comparing (r := { q with awaiting := .operand }) outer (level.and joined)
      .operand
    simpa only [List.append_assoc, List.append_nil] using taken
  | @or q rests joined =>
    obtain ⟨us, vs, rfl, outer, level⟩ := covers.rests rests
    have taken := Covers.comparing (r := { q with level := q.level.closeItem, awaiting := .operand })
      outer (level.or joined) .operand
    simpa only [List.append_assoc, List.append_nil] using taken
  | groupClosing rests closed nested =>
    obtain ⟨us, vs, rfl, outer, level⟩ := covers.rests rests
    exact covers_groupClosing nested outer level closed

/-- A reader that may stop covers a derivation. -/
theorem derives_of_finish {length : Nat} {w : Written} (covers : r.Covers ts)
    (finished : r.finish length = .ok w) : Derives .condition maxNesting ts w := by
  obtain ⟨q, rests, closed, rfl⟩ := rests_of_finish finished
  obtain ⟨us, vs, rfl, outer, level⟩ := covers.rests rests
  rw [closed] at outer level
  cases outer
  exact level.condition

/-- The tokens that a reader has taken and a complete reading of the rest make up a derivation. -/
theorem derives_of_run {length : Nat} {w : Written} (covers : r.Covers ts)
    (complete : r.run length us = .complete w) : Derives .condition maxNesting (ts ++ us) w := by
  induction us generalizing r ts with
  | nil =>
    rw [run] at complete
    split at complete
    · next v finished =>
      cases complete
      rw [List.append_nil]
      exact derives_of_finish covers finished
    · cases complete
  | cons t us ih =>
    rw [run] at complete
    split at complete
    · next s step =>
      have longer := ih (covers_step covers step) complete
      rwa [List.append_assoc, List.singleton_append] at longer
    · cases complete

end Reader

end RecordQuery
