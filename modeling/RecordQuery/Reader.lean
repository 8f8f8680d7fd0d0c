import RecordQuery.Condition
import RecordQuery.Literal.Decode
import RecordQuery.QueryError
import RecordQuery.Token.Scan

/-!
# Reading a query

The grammar of queries:

```text
condition  ::= item ("or" item)*
item       ::= atom ("and" atom)*
atom       ::= "(" condition ")" | "not" atom | comparison
comparison ::= call
             | call relation literal
             | call relation call
             | call "in" "(" literal ("," literal)* ")"
             | call "in" call
call       ::= name "(" literal ")"
```

A reader takes the tokens one at a time. It keeps the parts of the groups that are still open, and
what the next token may be; a token that cannot stand there ends the reading. The condition comes
out as it was written, with its negations and with groups and lists of one element, and with the
offset of its name in the accessor's place of every call.
-/

namespace RecordQuery

/-- A condition as it was written. -/
abbrev Written := Condition Nat

/-- How many groups may be open at once. -/
def maxNesting : Nat := 64

/-- What a call is read for. -/
inductive CallRole where
  /-- To start a comparison. -/
  | leading
  /-- To stand on the right of a relation. -/
  | compared (left : Call Nat) (r : Relation)
  /-- To answer the list in which the left call's answer is looked up. -/
  | searched (left : Call Nat)
deriving DecidableEq, Repr

/-- What may come next. -/
inductive Awaiting where
  /-- A negation, a group or a comparison. -/
  | operand
  /-- The parenthesis after a call's name. -/
  | callOpening (role : CallRole) (name : String) (offset : Nat)
  /-- A call's argument. -/
  | callArgument (role : CallRole) (name : String) (offset : Nat)
  /-- The parenthesis after a call's argument. -/
  | callClosing (role : CallRole) (name : String) (offset : Nat) (argument : Literal)
  /-- A relation or `in` after a comparison's first call, or what follows the comparison. -/
  | afterCall (c : Call Nat)
  /-- The literal or the call on the right of a relation. -/
  | comparand (left : Call Nat) (r : Relation)
  /-- The list or the call on the right of `in`. -/
  | collection (left : Call Nat)
  /-- A literal of a list, after the choices read so far. -/
  | choice (left : Call Nat) (choices : Option Choices)
  /-- A comma or the end of a list. -/
  | afterChoice (left : Call Nat) (choices : Choices)
  /-- What follows an atom. -/
  | connective
deriving DecidableEq, Repr

/-- The part of a condition that has been read: its complete items, the complete atoms of the item
    after them, both latest first, and the negations before the atom that is being read. -/
structure Level where
  items : List Written := []
  atoms : List Written := []
  nots : Nat := 0

namespace Level

/-- The level with one more negation before the next atom. -/
def pushNot (l : Level) : Level :=
  { l with nots := l.nots + 1 }

/-- The level with its atom read. -/
def pushAtom (l : Level) (w : Written) : Level :=
  { l with atoms := Formula.notTimes l.nots w :: l.atoms, nots := 0 }

/-- The level with its item read. -/
def closeItem (l : Level) : Level :=
  { l with items := .all l.atoms.reverse :: l.items, atoms := [] }

/-- The condition of a level that has been read to its end. -/
def condition (l : Level) : Written :=
  .any l.closeItem.items.reverse

end Level

/-- A reader between two tokens. -/
structure Reader where
  /-- The innermost open group, or the whole query if none is open. -/
  level : Level := {}
  /-- The levels around it, innermost first. -/
  outer : List Level := []
  awaiting : Awaiting := .operand
  /-- The calls that have been read, latest first. -/
  calls : List (Call Nat) := []

/-- The error for a token that cannot stand where it does. An unclosed text takes the rest of the
    query with it, so there the query ends too early. -/
def QueryError.unexpected (t : Token) : QueryError :=
  match t.kind with
  | .finish | .unclosedText => ⟨t.offset + t.text.length, .endsTooEarly⟩
  | kind => ⟨t.offset, .misplaced kind⟩

/-- The literal that a token stands for. -/
def Token.literal (t : Token) : Except QueryError Literal :=
  match t.kind with
  | .integer =>
    match Literal.decodeInteger t.text with
    | some n => .ok (.integer n)
    | none => .error ⟨t.offset, .integerOutOfRange t.text⟩
  | .text => .ok (.text (Literal.decodeText t.text))
  | _ => .error (.unexpected t)

namespace Reader

/-- The reader with an atom read. -/
def atomDone (r : Reader) (w : Written) : Reader :=
  { r with level := r.level.pushAtom w, awaiting := .connective }

/-- The reader with a call read. -/
def callDone (r : Reader) (role : CallRole) (c : Call Nat) : Reader :=
  let r := { r with calls := c :: r.calls }
  match role with
  | .leading => { r with awaiting := .afterCall c }
  | .compared left relation => r.atomDone (.test (.compareCalls left relation c))
  | .searched left => r.atomDone (.test (.memberCall left c false))

/-- The reader with a literal of a list read. -/
def choiceDone (r : Reader) (left : Call Nat) (choices : Option Choices) (t : Token) :
    Except QueryError Reader := do
  let l ← t.literal
  match choices with
  | none => return { r with awaiting := .afterChoice left (.singleton l) }
  | some choices =>
    match choices.push? l with
    | some choices => return { r with awaiting := .afterChoice left choices }
    | none => throw (.unexpected t)

/-- Take the token after an atom. -/
def connect (r : Reader) (t : Token) : Except QueryError Reader :=
  match t.kind with
  | .keyword .and => .ok { r with awaiting := .operand }
  | .keyword .or => .ok { r with level := r.level.closeItem, awaiting := .operand }
  | .closeParen =>
    match r.outer with
    | l :: outer =>
      .ok ({ r with level := l, outer := outer }.atomDone r.level.condition)
    | [] => .error (.unexpected t)
  | _ => .error (.unexpected t)

/-- Take one token. -/
def step (r : Reader) (t : Token) : Except QueryError Reader :=
  match r.awaiting with
  | .operand =>
    match t.kind with
    | .keyword .not => .ok { r with level := r.level.pushNot }
    | .openParen =>
      if r.outer.length < maxNesting then
        .ok { r with level := {}, outer := r.level :: r.outer }
      else .error ⟨t.offset, .nestedTooDeep maxNesting⟩
    | .name => .ok { r with awaiting := .callOpening .leading t.text t.offset }
    | _ => .error (.unexpected t)
  | .callOpening role name offset =>
    match t.kind with
    | .openParen => .ok { r with awaiting := .callArgument role name offset }
    | _ => .error (.unexpected t)
  | .callArgument role name offset => do
    let l ← t.literal
    return { r with awaiting := .callClosing role name offset l }
  | .callClosing role name offset argument =>
    match t.kind with
    | .closeParen => .ok (r.callDone role { name, argument, accessor := offset })
    | _ => .error (.unexpected t)
  | .afterCall c =>
    match t.kind with
    | .relation relation => .ok { r with awaiting := .comparand c relation }
    | .keyword .within => .ok { r with awaiting := .collection c }
    | _ => (r.atomDone (.test (.call c))).connect t
  | .comparand left relation =>
    match t.kind with
    | .name => .ok { r with awaiting := .callOpening (.compared left relation) t.text t.offset }
    | _ => do
      let l ← t.literal
      return r.atomDone (.test (.compare left relation l))
  | .collection left =>
    match t.kind with
    | .name => .ok { r with awaiting := .callOpening (.searched left) t.text t.offset }
    | .openParen => .ok { r with awaiting := .choice left none }
    | _ => .error (.unexpected t)
  | .choice left choices => r.choiceDone left choices t
  | .afterChoice left choices =>
    match t.kind with
    | .comma => .ok { r with awaiting := .choice left (some choices) }
    | .closeParen => .ok (r.atomDone (.test (.member left choices false)))
    | _ => .error (.unexpected t)
  | .connective => r.connect t

/-- The condition that has been read, at the end of a query of `length` characters. -/
def finish (r : Reader) (length : Nat) : Except QueryError Written :=
  match r.awaiting, r.outer with
  | .connective, [] => .ok r.level.condition
  | .afterCall c, [] => .ok (r.atomDone (.test (.call c))).level.condition
  | _, _ => .error ⟨length, .endsTooEarly⟩

end Reader

/-- What came of reading a query: the whole condition, or the calls that were complete when an error
    ended the reading. -/
inductive Reading where
  | complete (w : Written)
  | stopped (calls : List (Call Nat)) (error : QueryError)

/-- Take the remaining tokens of a query of `length` characters. -/
def Reader.run (r : Reader) (length : Nat) : List Token → Reading
  | [] =>
    match r.finish length with
    | .ok w => .complete w
    | .error e => .stopped r.calls.reverse e
  | t :: ts =>
    match r.step t with
    | .ok r => r.run length ts
    | .error e => .stopped r.calls.reverse e

/-- Read a query. -/
def Reading.ofQuery (query : String) : Reading :=
  ({} : Reader).run query.length (tokenize query)

end RecordQuery
