import RecordQuery.Literal
import RecordQuery.Token

/-!
# Query errors

Why a query has no condition, and where in the query that shows.
-/

namespace RecordQuery

/-- What is wrong with a query. -/
inductive QueryFault where
  /-- The query ends, or its rest is an unclosed text, where more is needed. -/
  | endsTooEarly
  /-- A token stands where no token of its kind can. -/
  | misplaced (found : TokenKind)
  /-- A call has no accessor. -/
  | unboundCall (name : String) (argument : LiteralType) (suggestion : Option String)
  /-- An integer literal does not fit in 64 bits. -/
  | integerOutOfRange (text : String)
  /-- More groups are open than the limit allows. -/
  | nestedTooDeep (limit : Nat)
deriving DecidableEq, Repr

/-- A fault in words. -/
def QueryFault.message : QueryFault → String
  | endsTooEarly => "unexpected end of expression"
  | misplaced found => "unexpected token: " ++ found.describe
  | unboundCall name argument suggestion =>
    "no such method: " ++ name ++ "(" ++ argument.name ++ ")" ++
      match suggestion with
      | some similar => ", did you mean '" ++ similar ++ "'?"
      | none => ""
  | integerOutOfRange text => "invalid integer literal: " ++ text
  | nestedTooDeep limit => "expression nested deeper than " ++ toString limit ++ " levels"

/-- A fault and the number of characters before it. -/
structure QueryError where
  offset : Nat
  fault : QueryFault
deriving DecidableEq, Repr

/-- An error in words. -/
def QueryError.message (e : QueryError) : String :=
  toString e.offset ++ ": " ++ e.fault.message

end RecordQuery
