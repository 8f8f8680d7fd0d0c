import RecordQuery.Relation

/-!
# Tokens

The words of a query: each has a kind, its exact text, and the offset of its first character.
-/

namespace RecordQuery

/-- The words with a meaning of their own, in any letter case. -/
inductive Keyword where
  | and
  | or
  | not
  | within
deriving DecidableEq, Repr

/-- A keyword in lower case. -/
def Keyword.spelling : Keyword → String
  | and => "and"
  | or => "or"
  | not => "not"
  | within => "in"

/-- Every keyword. -/
def Keyword.all : List Keyword := [and, or, not, within]

/-- What a token is. -/
inductive TokenKind where
  | integer
  | text
  /-- A text literal whose closing quote is missing. -/
  | unclosedText
  | name
  | keyword (k : Keyword)
  | openParen
  | closeParen
  | comma
  | relation (r : Relation)
  /-- A character that starts no token. -/
  | illegal
  /-- The end of the query. -/
  | finish
deriving DecidableEq, Repr

/-- A kind of token in messages. -/
def TokenKind.describe : TokenKind → String
  | integer => "integer literal"
  | text => "string literal"
  | unclosedText => "unterminated string literal"
  | name => "identifier"
  | keyword k => k.spelling.map Char.toUpper
  | openParen => "'('"
  | closeParen => "')'"
  | comma => "','"
  | relation r => "'" ++ r.symbol ++ "'"
  | illegal => "illegal character"
  | finish => "end of input"

/-- A token and where it stands. -/
structure Token where
  kind : TokenKind
  text : String
  /-- The number of characters before the token. -/
  offset : Nat
deriving DecidableEq, Repr

end RecordQuery
