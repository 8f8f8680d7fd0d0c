import RecordQuery.Proofs.Grammar.Derivation

/-!
# What a token does to a reader

A token that a reader takes is one of a few moves, each with what has to hold for it and with the
reader after it: `Reader.moves_of_step`. A reading ends where an atom is complete:
`Reader.rests_of_finish`.
-/

namespace RecordQuery

open Grammar

/-- What a call is read for where its name may stand. -/
def Awaiting.callRole? : Awaiting → Option CallRole
  | operand => some .leading
  | comparand left r => some (.compared left r)
  | collection left => some (.searched left)
  | _ => none

namespace Reader

variable {r s : Reader} {t : Token}

/-- The reader `r` with its atom complete, where the atom may be complete: after it, or after its first
    call. -/
inductive Rests (r : Reader) : Reader → Prop
  | connective (await : r.awaiting = .connective) : Rests r r
  | bareCall {c : Call Nat} (await : r.awaiting = .afterCall c) :
      Rests r (r.atomDone (.test (.call c)))

/-- `Moves r t s`: the token `t` can stand where the reader `r` is, and takes it to `s`. -/
inductive Moves (r : Reader) (t : Token) : Reader → Prop
  | negation (await : r.awaiting = .operand) (negated : t.kind = .keyword .not) :
      Moves r t { r with level := r.level.pushNot, awaiting := .operand }
  | groupOpening (await : r.awaiting = .operand) (opened : t.kind = .openParen)
      (free : r.outer.length < maxNesting) :
      Moves r t { r with level := {}, outer := r.level :: r.outer, awaiting := .operand }
  | callName {role : CallRole} (starts : r.awaiting.callRole? = some role) (named : t.kind = .name) :
      Moves r t { r with awaiting := .callOpening role t.text t.offset }
  | callOpening {role : CallRole} {name : String} {offset : Nat}
      (await : r.awaiting = .callOpening role name offset) (opened : t.kind = .openParen) :
      Moves r t { r with awaiting := .callArgument role name offset }
  | callArgument {role : CallRole} {name : String} {offset : Nat} {l : Literal}
      (await : r.awaiting = .callArgument role name offset) (argued : IsLiteral t l) :
      Moves r t { r with awaiting := .callClosing role name offset l }
  | callClosing {role : CallRole} {name : String} {offset : Nat} {l : Literal}
      (await : r.awaiting = .callClosing role name offset l) (closed : t.kind = .closeParen) :
      Moves r t (r.callDone role { name, argument := l, accessor := offset })
  | relation {c : Call Nat} {relation : Relation} (await : r.awaiting = .afterCall c)
      (related : t.kind = .relation relation) : Moves r t { r with awaiting := .comparand c relation }
  | within {c : Call Nat} (await : r.awaiting = .afterCall c) (within : t.kind = .keyword .within) :
      Moves r t { r with awaiting := .collection c }
  | comparand {c : Call Nat} {relation : Relation} {l : Literal}
      (await : r.awaiting = .comparand c relation) (right : IsLiteral t l) :
      Moves r t (r.atomDone (.test (.compare c relation l)))
  | listOpening {c : Call Nat} (await : r.awaiting = .collection c) (opened : t.kind = .openParen) :
      Moves r t { r with awaiting := .choice c none }
  | firstChoice {c : Call Nat} {l : Literal} (await : r.awaiting = .choice c none)
      (literal : IsLiteral t l) : Moves r t { r with awaiting := .afterChoice c (.singleton l) }
  | nextChoice {c : Call Nat} {choices longer : Choices} {l : Literal}
      (await : r.awaiting = .choice c (some choices)) (literal : IsLiteral t l)
      (pushed : choices.push? l = some longer) : Moves r t { r with awaiting := .afterChoice c longer }
  | comma {c : Call Nat} {choices : Choices} (await : r.awaiting = .afterChoice c choices)
      (separated : t.kind = .comma) : Moves r t { r with awaiting := .choice c (some choices) }
  | listClosing {c : Call Nat} {choices : Choices} (await : r.awaiting = .afterChoice c choices)
      (closed : t.kind = .closeParen) : Moves r t (r.atomDone (.test (.member c choices false)))
  | and {q : Reader} (rests : r.Rests q) (joined : t.kind = .keyword .and) :
      Moves r t { q with awaiting := .operand }
  | or {q : Reader} (rests : r.Rests q) (joined : t.kind = .keyword .or) :
      Moves r t { q with level := q.level.closeItem, awaiting := .operand }
  | groupClosing {q : Reader} {l : Level} {outer : List Level} (rests : r.Rests q)
      (closed : t.kind = .closeParen) (nested : q.outer = l :: outer) :
      Moves r t ({ q with level := l, outer := outer }.atomDone q.level.condition)

/-- What is done with a token that has to be a literal. -/
theorem exists_isLiteral {f : Literal → Except QueryError Reader}
    (step : (do let l ← t.literal; f l) = .ok s) : ∃ l, IsLiteral t l ∧ f l = .ok s := by
  cases read : t.literal with
  | error e =>
    rw [read] at step
    cases step
  | ok l =>
    rw [read] at step
    exact ⟨l, isLiteral_iff.mpr read, step⟩

theorem moves_of_connect {q : Reader} (rests : r.Rests q) (step : q.connect t = .ok s) :
    r.Moves t s := by
  unfold connect at step
  split at step
  · next joined =>
    cases step
    exact .and rests joined
  · next joined =>
    cases step
    exact .or rests joined
  · next closed =>
    split at step
    · next l outer nested =>
      cases step
      exact .groupClosing rests closed nested
    · cases step
  · cases step

theorem moves_of_choiceDone {c : Call Nat} {choices : Option Choices}
    (await : r.awaiting = .choice c choices) (step : r.choiceDone c choices t = .ok s) :
    r.Moves t s := by
  obtain ⟨l, literal, step⟩ := exists_isLiteral step
  cases choices with
  | none =>
    cases step
    exact .firstChoice await literal
  | some choices =>
    simp only at step
    split at step
    · next longer pushed =>
      cases step
      exact .nextChoice await literal pushed
    · cases step

/-- A token that a reader takes is one of these moves. -/
theorem moves_of_step (step : r.step t = .ok s) : r.Moves t s := by
  cases await : r.awaiting with
  | operand =>
    simp only [Reader.step, await] at step
    split at step
    · next negated =>
      cases step
      exact .negation await negated
    · next opened =>
      split at step
      · next free =>
        cases step
        exact .groupOpening await opened free
      · cases step
    · next named =>
      cases step
      exact .callName (by rw [await]; rfl) named
    · cases step
  | callOpening role name offset =>
    simp only [Reader.step, await] at step
    split at step
    · next opened =>
      cases step
      exact .callOpening await opened
    · cases step
  | callArgument role name offset =>
    simp only [Reader.step, await] at step
    obtain ⟨l, literal, step⟩ := exists_isLiteral step
    cases step
    exact .callArgument await literal
  | callClosing role name offset argument =>
    simp only [Reader.step, await] at step
    split at step
    · next closed =>
      cases step
      exact .callClosing await closed
    · cases step
  | afterCall c =>
    simp only [Reader.step, await] at step
    split at step
    · next relation related =>
      cases step
      exact .relation await related
    · next within =>
      cases step
      exact .within await within
    · exact moves_of_connect (.bareCall await) step
  | comparand left relation =>
    simp only [Reader.step, await] at step
    split at step
    · next named =>
      cases step
      exact .callName (by rw [await]; rfl) named
    · obtain ⟨l, literal, step⟩ := exists_isLiteral step
      cases step
      exact .comparand await literal
  | collection left =>
    simp only [Reader.step, await] at step
    split at step
    · next named =>
      cases step
      exact .callName (by rw [await]; rfl) named
    · next opened =>
      cases step
      exact .listOpening await opened
    · cases step
  | choice left choices =>
    simp only [Reader.step, await] at step
    exact moves_of_choiceDone await step
  | afterChoice left choices =>
    simp only [Reader.step, await] at step
    split at step
    · next separated =>
      cases step
      exact .comma await separated
    · next closed =>
      cases step
      exact .listClosing await closed
    · cases step
  | connective =>
    simp only [Reader.step, await] at step
    exact moves_of_connect (.connective await) step

/-- A reading may end where an atom is complete and no group is open. -/
theorem rests_of_finish {length : Nat} {w : Written} (finished : r.finish length = .ok w) :
    ∃ q, r.Rests q ∧ q.outer = [] ∧ q.level.condition = w := by
  unfold finish at finished
  split at finished
  · next await closed =>
    cases finished
    exact ⟨r, .connective await, closed, rfl⟩
  · next c await closed =>
    cases finished
    exact ⟨_, .bareCall await, closed, rfl⟩
  · cases finished

end Reader

end RecordQuery
