import RecordQuery.Condition
import RecordQuery.Value

/-!
# Evaluation

Whether a record meets a condition. Accessors belong to a host: they may fail, and they may keep a
state of their own between invocations. An evaluation also keeps the latest answer of a call, so
that a user can see why a record did or did not match.
-/

namespace RecordQuery

/-- What a host does with its accessors: run one, under the name with which it was called, on a
    literal argument and a record, in a state of the host's own. -/
structure Host (α ρ σ ε : Type) where
  run : α → String → Literal → ρ → σ → Except ε Value × σ

/-- One use of an accessor by an evaluation. -/
structure Invocation (α : Type) where
  accessor : α
  name : String
  argument : Literal
deriving DecidableEq, Repr

/-- A host that also keeps the list of its invocations, the latest last. -/
def Host.recording {α ρ σ ε : Type} (h : Host α ρ σ ε) :
    Host α ρ (σ × List (Invocation α)) ε where
  run accessor name argument record := fun (state, log) =>
    let (answer, state) := h.run accessor name argument record state
    (answer, state, log ++ [⟨accessor, name, argument⟩])

/-- The type of answer that a test needs. -/
inductive Needed where
  | type (t : ValueType)
  | integerOrText
deriving DecidableEq, Repr

/-- What a test needs, in messages. -/
def Needed.name : Needed → String
  | type t => t.name
  | integerOrText => "int or string"

/-- Why an evaluation stopped without an answer. -/
inductive EvalFault (ε : Type) where
  /-- An answer has a type that the test cannot use. -/
  | typeMismatch (needed : Needed) (found : ValueType)
  /-- An accessor failed. -/
  | host (failure : ε)
deriving DecidableEq, Repr

/-- The message of an error, given the text of a host's failure. -/
def EvalFault.message {ε : Type} (failureText : ε → String) : EvalFault ε → String
  | typeMismatch needed found =>
    "type not matched: expected " ++ needed.name ++ ", got " ++ found.name
  | host failure => failureText failure

/-- A record under evaluation, and the latest answer of a call. -/
structure Context (ρ : Type) where
  record : ρ
  last : Option Value := none
deriving DecidableEq, Repr

/-- The state of an evaluation. -/
structure EvalState (ρ σ : Type) where
  context : Context ρ
  host : σ

/-- A computation that invokes accessors. An error leaves the state as it was when it arose. -/
abbrev Evaluation (ρ σ ε : Type) := EStateM (EvalFault ε) (EvalState ρ σ)

namespace Evaluation

variable {ρ σ ε β : Type}

/-- Turn to another record and forget the latest answer. -/
def setRecord (record : ρ) : Evaluation ρ σ ε Unit :=
  modify fun s => { s with context := ⟨record, none⟩ }

/-- Keep a call's answer. -/
def keepAnswer (v : Value) : Evaluation ρ σ ε Unit :=
  modify fun s => { s with context.last := some v }

/-- The answer as an integer or a text, if it has the needed type. -/
def asType (needed : LiteralType) (v : Value) : Evaluation ρ σ ε Literal :=
  match needed, v with
  | .integer, .integer n => return .integer n
  | .text, .text s => return .text s
  | .integer, v => throw (.typeMismatch (.type .integer) v.type)
  | .text, v => throw (.typeMismatch (.type .text) v.type)

end Evaluation

namespace Call

variable {α ρ σ ε : Type}

/-- Run the call's accessor on the record. -/
def invoke (host : Host α ρ σ ε) (c : Call α) : Evaluation ρ σ ε Value := fun s =>
  match host.run c.accessor c.name c.argument s.context.record s.host with
  | (.ok v, state) => .ok v { s with host := state }
  | (.error failure, state) => .error (.host failure) { s with host := state }

/-- Run the call's accessor and keep its answer. -/
def eval (host : Host α ρ σ ε) (c : Call α) : Evaluation ρ σ ε Value := do
  let v ← c.invoke host
  Evaluation.keepAnswer v
  return v

end Call

namespace Test

variable {α ρ σ ε : Type}

open Evaluation (asType)

/-- Whether the record passes a test. With two calls the left one runs first; its answer is looked
    at only after the right one has run, and only the right one's answer is kept. -/
def check (host : Host α ρ σ ε) : Test α → Evaluation ρ σ ε Bool
  | call c => do
    let v ← c.eval host
    return v.isTruthy != c.negated
  | compare c r target => do
    let v ← c.eval host
    let actual ← asType target.type v
    return r.between actual target
  | member c choices negated => do
    let v ← c.eval host
    let actual ← asType choices.type v
    return choices.contains actual != negated
  | compareCalls left r right => do
    let v ← left.invoke host
    let w ← right.eval host
    match v with
    | .integer m => return r.between (.integer m) (← asType .integer w)
    | .text s => return r.between (.text s) (← asType .text w)
    | v => throw (.typeMismatch .integerOrText v.type)
  | memberCall left right negated => do
    let v ← left.invoke host
    let w ← right.eval host
    match v, w with
    | .integer m, .integers ns => return ns.contains m != negated
    | .text s, .texts ss => return ss.contains s != negated
    | .integer _, w => throw (.typeMismatch (.type .integers) w.type)
    | .text _, w => throw (.typeMismatch (.type .texts) w.type)
    | v, _ => throw (.typeMismatch .integerOrText v.type)

end Test

namespace Condition

variable {α ρ σ ε : Type}

/-- Whether the record meets a condition. The first error ends the evaluation. -/
def isTrue (host : Host α ρ σ ε) (c : Condition α) : Evaluation ρ σ ε Bool :=
  c.holds (Test.check host)

end Condition

namespace Evaluation

variable {ρ σ ε β : Type}

/-- The computation from a given context on, as a computation of the host's state alone. The context
    it leaves behind is dropped. -/
def within (context : Context ρ) (e : Evaluation ρ σ ε β) : EStateM (EvalFault ε) σ β := fun state =>
  match e ⟨context, state⟩ with
  | .ok b s => .ok b s.host
  | .error failure s => .error failure s.host

end Evaluation

namespace Condition

variable {α ρ σ ε : Type}

/-- Whether one record meets a condition, in a context of its own. -/
def isMetBy (host : Host α ρ σ ε) (c : Condition α) (record : ρ) :
    EStateM (EvalFault ε) σ Bool :=
  (c.isTrue host).within ⟨record, none⟩

/-- The records that meet a condition, found one after the other in one context. -/
def keepFrom (host : Host α ρ σ ε) (c : Condition α) : List ρ → Evaluation ρ σ ε (List ρ)
  | [] => return []
  | record :: records => do
    Evaluation.setRecord record
    if ← c.isTrue host then return record :: (← keepFrom host c records)
    else keepFrom host c records

/-- The records that meet a condition, in order. The first error ends the search. -/
def filter (host : Host α ρ σ ε) (c : Condition α) : List ρ → EStateM (EvalFault ε) σ (List ρ)
  | [] => return []
  | record :: records => (c.keepFrom host (record :: records)).within ⟨record, none⟩

end Condition

end RecordQuery
