import RecordQuery.Text.ExtendingMarks
import RecordQuery.Text.Unprintable

/-!
# Quoted text

How a text is shown inside a dump: between double quotes, with everything that would not be seen as
itself written as an escape.
-/

namespace RecordQuery.Text

/-- Fillers that count as letters but are drawn as nothing. -/
def blankLetters : Ranges where
  rows := #[(0x115F, 0x1160), (0x3164, 0x3164), (0xFFA0, 0xFFA0)]

/-- Whether a character is shown as itself: it has a form of its own and does not melt into the
    character before it. -/
def isShown (c : Char) : Bool :=
  (0x20 ≤ c.toNat && c.toNat < 0x7F) ||
    (0xA0 < c.toNat &&
      !unprintable.contains c && !extendingMarks.contains c && !blankLetters.contains c)

/-- A character by its code point, in lower-case hexadecimal between braces. -/
def codePointEscape (c : Char) : List Char :=
  ['\\', 'u', '\x7b'] ++ Nat.toDigits 16 c.toNat ++ ['\x7d']

/-- One character of a quoted text. -/
def quoteChar (c : Char) : List Char :=
  if c = '"' then ['\\', '"']
  else if c = '\\' then ['\\', '\\']
  else if c = '\t' then ['\\', 't']
  else if c = '\n' then ['\\', 'n']
  else if c = '\r' then ['\\', 'r']
  else if c = '\x00' then ['\\', '0']
  else if isShown c then [c]
  else codePointEscape c

/-- A text between double quotes. -/
def quote (s : String) : String :=
  String.ofList ('"' :: s.toList.flatMap quoteChar ++ ['"'])

end RecordQuery.Text
