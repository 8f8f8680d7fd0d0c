import RecordQuery.Literal

/-!
# Reading literals

The constant that the text of a token stands for. A text literal stands between single quotes; a
backslash makes the next character part of the text, except that `\t`, `\n` and `\r` stand for the
tab, the newline and the carriage return. An integer literal is decimal and must fit in 64 bits.
-/

namespace RecordQuery.Literal

/-- What a character after a backslash stands for. -/
def unescapeChar (c : Char) : Char :=
  if c = 't' then '\t' else if c = 'n' then '\n' else if c = 'r' then '\r' else c

/-- The text inside the quotes, escapes resolved. A backslash at the end stands for nothing. -/
def unescape : List Char → List Char
  | [] => []
  | ['\\'] => []
  | '\\' :: c :: cs => unescapeChar c :: unescape cs
  | c :: cs => c :: unescape cs

/-- The text without a quote at its start. -/
def stripOpening : List Char → List Char
  | '\'' :: cs => cs
  | cs => cs

/-- The text without a quote at its end. -/
def stripClosing (cs : List Char) : List Char :=
  if cs.getLast? = some '\'' then cs.dropLast else cs

/-- The text that a text literal stands for. -/
def decodeText (written : String) : String :=
  String.ofList (unescape (stripClosing (stripOpening written.toList)))

/-- The number that a run of decimal digits stands for; nothing for an empty run or another
    character in it. -/
def decodeDigits (cs : List Char) : Option Nat :=
  if cs ≠ [] ∧ cs.all Char.isDigit then
    some (cs.foldl (fun n c => 10 * n + (c.toNat - '0'.toNat)) 0)
  else none

/-- The whole number that a decimal numeral with an optional sign stands for. -/
def decodeWhole : List Char → Option Int
  | '-' :: cs => (decodeDigits cs).map fun n => -(n : Int)
  | '+' :: cs => (decodeDigits cs).map fun n => (n : Int)
  | cs => (decodeDigits cs).map fun n => (n : Int)

/-- A whole number as a 64-bit integer, if it is one. -/
def fit (n : Int) : Option Int64 :=
  if Int64.minValue.toInt ≤ n ∧ n ≤ Int64.maxValue.toInt then some (Int64.ofInt n) else none

/-- The integer that an integer literal stands for, if it fits in 64 bits. -/
def decodeInteger (written : String) : Option Int64 :=
  (decodeWhole written.toList).bind fit

end RecordQuery.Literal
