import RecordQuery.Proofs.Condition.Relocation
import RecordQuery.Proofs.Token.Layout

/-!
# Reading at other places

A reader looks at the kinds and the texts of the tokens. Their offsets it only passes on, to the calls
that it reads and to the error that ends the reading. So tokens that have been moved are read as they
were before, and what comes of it is moved like them: `Reader.run_relocate`.
-/

namespace RecordQuery

/-- The error, moved along with the tokens of its query. The end of the query is not at a token; it is
    moved to the length of the other query. -/
def QueryError.relocate (move : Nat → Nat) (length : Nat) (e : QueryError) : QueryError :=
  { e with offset := if e.fault = .endsTooEarly then length else move e.offset }

namespace Token

/-- The token `t` has been moved to `u`, in a query of `length` characters. A keyword may have changed
    its letter case, and a token that takes the rest of the query ends where the query does. -/
structure Moved (move : Nat → Nat) (length : Nat) (t u : Token) : Prop where
  word : t.word.Recased u.word
  offset : u.offset = move t.offset
  ends : u.kind = .finish ∨ u.kind = .unclosedText → u.offset + u.text.length = length

namespace Moved

variable {move : Nat → Nat} {length : Nat} {t u : Token}

theorem kind (moved : Moved move length t u) : u.kind = t.kind :=
  moved.word.kind

/-- Only the text of a keyword can have changed. -/
theorem text (moved : Moved move length t u) {k : TokenKind} (kind : t.kind = k)
    (other : ∀ w, k ≠ .keyword w) : u.text = t.text := by
  rcases moved.word.text with same | ⟨⟨w, isKeyword⟩, _⟩
  · exact same
  · exact absurd (kind.symm.trans isKeyword) (other w)

theorem unexpected (moved : Moved move length t u) :
    QueryError.unexpected u = (QueryError.unexpected t).relocate move length := by
  have ends := moved.ends
  unfold QueryError.unexpected
  rw [moved.kind] at ends ⊢
  cases kind : t.kind with
  | finish => exact congrArg (QueryError.mk · .endsTooEarly) (ends (.inl kind))
  | unclosedText => exact congrArg (QueryError.mk · .endsTooEarly) (ends (.inr kind))
  | _ => exact congrArg (QueryError.mk · _) moved.offset

theorem literal (moved : Moved move length t u) :
    u.literal = t.literal.mapError (QueryError.relocate move length) := by
  unfold Token.literal
  rw [moved.kind]
  cases kind : t.kind with
  | integer =>
    rw [moved.text kind (by simp), moved.offset]
    cases Literal.decodeInteger t.text <;> rfl
  | text =>
    rw [moved.text kind (by simp)]
    rfl
  | _ => exact congrArg Except.error moved.unexpected

end Moved

end Token

namespace Level

/-- The level with the names of its calls at other offsets. -/
def relocate (move : Nat → Nat) (l : Level) : Level :=
  { l with items := l.items.map (·.relocate move), atoms := l.atoms.map (·.relocate move) }

variable (move : Nat → Nat) (l : Level)

theorem pushAtom_relocate (w : Written) :
    (l.relocate move).pushAtom (w.relocate move) = (l.pushAtom w).relocate move := by
  have denied : ∀ n (w : Written), Formula.notTimes n (w.relocate move) =
      Condition.relocate move (Formula.notTimes n w) := by
    intro n
    induction n with
    | zero => exact fun w => rfl
    | succ n ih => exact fun w => ih (.not w)
  simp only [pushAtom, relocate, denied, List.map_cons]

theorem closeItem_relocate : (l.relocate move).closeItem = l.closeItem.relocate move := by
  have item : Condition.relocate move (.all l.atoms.reverse) =
      .all (l.atoms.map (Condition.relocate move)).reverse := by
    rw [Condition.relocate, Formula.map, Formula.mapAll_eq_map, List.map_reverse]
    rfl
  simp only [closeItem, relocate, List.map_cons, List.map_nil, item]

theorem condition_relocate : (l.relocate move).condition = l.condition.relocate move := by
  rw [condition, closeItem_relocate, condition, Condition.relocate, Formula.map, Formula.mapAll_eq_map,
    List.map_reverse]
  rfl

end Level

/-- What a call is read for, with names at other offsets. -/
def CallRole.relocate (move : Nat → Nat) : CallRole → CallRole
  | leading => leading
  | compared left r => compared (left.relocate move) r
  | searched left => searched (left.relocate move)

/-- What may come next, with names at other offsets. -/
def Awaiting.relocate (move : Nat → Nat) : Awaiting → Awaiting
  | operand => operand
  | callOpening role name offset => callOpening (role.relocate move) name (move offset)
  | callArgument role name offset => callArgument (role.relocate move) name (move offset)
  | callClosing role name offset argument =>
    callClosing (role.relocate move) name (move offset) argument
  | afterCall c => afterCall (c.relocate move)
  | comparand left r => comparand (left.relocate move) r
  | collection left => collection (left.relocate move)
  | choice left choices => choice (left.relocate move) choices
  | afterChoice left choices => afterChoice (left.relocate move) choices
  | connective => connective

namespace Reader

/-- The reader with the names that it has read at other offsets. -/
def relocate (move : Nat → Nat) (r : Reader) : Reader where
  level := r.level.relocate move
  outer := r.outer.map (·.relocate move)
  awaiting := r.awaiting.relocate move
  calls := r.calls.map (·.relocate move)

variable {move : Nat → Nat} {length : Nat} {r : Reader} {t u : Token}

theorem atomDone_relocate (move : Nat → Nat) (r : Reader) (w : Written) :
    (r.relocate move).atomDone (w.relocate move) = (r.atomDone w).relocate move := by
  simp only [atomDone, relocate, Level.pushAtom_relocate, Awaiting.relocate]

theorem callDone_relocate (move : Nat → Nat) (r : Reader) (role : CallRole) (c : Call Nat) :
    (r.relocate move).callDone (role.relocate move) (c.relocate move) =
      (r.callDone role c).relocate move := by
  cases role with
  | leading => rfl
  | compared left relation =>
    exact atomDone_relocate move { r with calls := c :: r.calls }
      (.test (.compareCalls left relation c))
  | searched left =>
    exact atomDone_relocate move { r with calls := c :: r.calls } (.test (.memberCall left c false))

theorem connect_relocate (moved : t.Moved move length u) :
    (r.relocate move).connect u =
      ((r.connect t).map (relocate move)).mapError (QueryError.relocate move length) := by
  have refused := congrArg (Except.error (α := Reader)) moved.unexpected
  obtain ⟨level, outer, awaiting, calls⟩ := r
  unfold connect
  rw [moved.kind]
  cases t.kind with
  | keyword k =>
    cases k with
    | and => rfl
    | or =>
      simp only [relocate, Level.closeItem_relocate]
      rfl
    | not | within => exact refused
  | closeParen =>
    cases outer with
    | nil => exact refused
    | cons l outer =>
      have closed := atomDone_relocate move ⟨l, outer, awaiting, calls⟩ level.condition
      rw [← Level.condition_relocate] at closed
      exact congrArg Except.ok closed
  | _ => exact refused

theorem choiceDone_relocate (moved : t.Moved move length u) (left : Call Nat)
    (choices : Option Choices) :
    (r.relocate move).choiceDone (left.relocate move) choices u =
      ((r.choiceDone left choices t).map (relocate move)).mapError
        (QueryError.relocate move length) := by
  have refused := congrArg (Except.error (α := Reader)) moved.unexpected
  unfold choiceDone
  rw [moved.literal]
  cases t.literal with
  | error e => rfl
  | ok l =>
    cases choices with
    | none => rfl
    | some choices =>
      simp only [Except.mapError, bind, Except.bind]
      cases choices.push? l with
      | none => exact refused
      | some longer => rfl

/-- A reader takes a token at another place as it takes the token. -/
theorem step_relocate (moved : t.Moved move length u) :
    (r.relocate move).step u =
      ((r.step t).map (relocate move)).mapError (QueryError.relocate move length) := by
  have refused := congrArg (Except.error (α := Reader)) moved.unexpected
  have connected := fun r : Reader => connect_relocate (r := r) moved
  obtain ⟨level, outer, awaiting, calls⟩ := r
  cases awaiting with
  | operand =>
    simp only [step, relocate, Awaiting.relocate, List.length_map]
    rw [moved.kind]
    cases kind : t.kind with
    | keyword k =>
      cases k with
      | not => rfl
      | and | or | within => exact refused
    | openParen =>
      by_cases room : outer.length < maxNesting
      · simp only [if_pos room]
        rfl
      · simp only [if_neg room, moved.offset]
        rfl
    | name =>
      simp only [moved.text kind (by simp), moved.offset]
      rfl
    | _ => exact refused
  | callOpening role name offset =>
    simp only [step, relocate, Awaiting.relocate]
    rw [moved.kind]
    cases t.kind with
    | openParen => rfl
    | _ => exact refused
  | callArgument role name offset =>
    simp only [step, relocate, Awaiting.relocate, moved.literal]
    cases t.literal <;> rfl
  | callClosing role name offset argument =>
    have done := callDone_relocate move
      ⟨level, outer, .callClosing role name offset argument, calls⟩ role ⟨name, argument, offset, false⟩
    unfold step
    rw [moved.kind]
    cases t.kind with
    | closeParen => exact congrArg Except.ok done
    | _ => exact refused
  | afterCall c =>
    have bare := atomDone_relocate move ⟨level, outer, .afterCall c, calls⟩ (.test (.call c))
    have connected := connected (Reader.atomDone ⟨level, outer, .afterCall c, calls⟩ (.test (.call c)))
    rw [← bare] at connected
    unfold step
    rw [moved.kind]
    cases t.kind with
    | relation relation => rfl
    | keyword k =>
      cases k with
      | within => rfl
      | and | or | not => exact connected
    | _ => exact connected
  | comparand left relation =>
    let r : Reader := ⟨level, outer, .comparand left relation, calls⟩
    have constant :
        (u.literal >>= fun l =>
          .ok ((r.relocate move).atomDone (.test (.compare (left.relocate move) relation l)))) =
        ((t.literal >>= fun l => .ok (r.atomDone (.test (.compare left relation l)))).map
          (relocate move)).mapError (QueryError.relocate move length) := by
      rw [moved.literal]
      cases t.literal with
      | error e => rfl
      | ok l => exact congrArg Except.ok (atomDone_relocate move r (.test (.compare left relation l)))
    unfold step
    rw [moved.kind]
    cases kind : t.kind with
    | name =>
      simp only [relocate, Awaiting.relocate, moved.text kind (by simp), moved.offset]
      rfl
    | _ => exact constant
  | collection left =>
    simp only [step, relocate, Awaiting.relocate]
    rw [moved.kind]
    cases kind : t.kind with
    | name =>
      simp only [moved.text kind (by simp), moved.offset]
      rfl
    | openParen => rfl
    | _ => exact refused
  | choice left choices => exact choiceDone_relocate moved left choices
  | afterChoice left choices =>
    have done := atomDone_relocate move ⟨level, outer, .afterChoice left choices, calls⟩
      (.test (.member left choices false))
    unfold step
    rw [moved.kind]
    cases t.kind with
    | comma => rfl
    | closeParen => exact congrArg Except.ok done
    | _ => exact refused
  | connective => exact connected _

/-- At the end of the query a reader comes to what it came to before, and the end is at its new place. -/
theorem finish_relocate (n : Nat) :
    (r.relocate move).finish length =
      ((r.finish n).map (Condition.relocate move)).mapError (QueryError.relocate move length) := by
  obtain ⟨level, outer, awaiting, calls⟩ := r
  cases outer with
  | cons l outer => cases awaiting <;> rfl
  | nil =>
    cases awaiting with
    | connective => exact congrArg Except.ok (Level.condition_relocate move level)
    | afterCall c =>
      have bare := Level.pushAtom_relocate move level (.test (.call c))
      have condition := Level.condition_relocate move (level.pushAtom (.test (.call c)))
      rw [← bare] at condition
      exact congrArg Except.ok condition
    | _ => rfl

end Reader

/-- What came of reading a query, with its tokens moved. -/
def Reading.relocate (move : Nat → Nat) (length : Nat) : Reading → Reading
  | complete w => complete (w.relocate move)
  | stopped calls e => stopped (calls.map (·.relocate move)) (e.relocate move length)

/-- Tokens at other places are read as the tokens are, and what comes of it is moved with them. -/
theorem Reader.run_relocate {move : Nat → Nat} {length : Nat} {ts us : List Token}
    (moved : List.Forall₂ (Token.Moved move length) ts us) (n : Nat) (r : Reader) :
    (r.relocate move).run length us = (r.run n ts).relocate move length := by
  induction moved generalizing r with
  | nil =>
    rw [run, run, finish_relocate n]
    cases r.finish n with
    | ok w => rfl
    | error e => exact congrArg (Reading.stopped · _) List.map_reverse.symm
  | cons first _ ih =>
    rw [run, run, step_relocate first]
    cases r.step _ with
    | ok s => exact ih s
    | error e => exact congrArg (Reading.stopped · _) List.map_reverse.symm

end RecordQuery
