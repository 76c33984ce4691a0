import TypedEval.Text.Escaped

/-!
# Quoted text

A name is shown between double quotes. A quote, a backslash and the usual control characters are
written with a backslash and a letter; every other character that would not show by itself is
written by its number, as `\u` and hexadecimal digits in braces.
-/

namespace TypedEval.Text

/-- One hexadecimal digit, in lower case. -/
def hexDigit (n : Nat) : Char :=
  if n < 10 then Char.ofNat (48 + n) else Char.ofNat (87 + n)

/-- A number in hexadecimal, without leading zeros, in at most `width` digits. -/
def hexDigits : (width : Nat) → Nat → List Char
  | 0, _ => []
  | width + 1, n =>
    if n < 16 then [hexDigit n] else hexDigits width (n / 16) ++ [hexDigit (n % 16)]

/-- How one character is written inside quotes. -/
def quoteChar (c : Char) : List Char :=
  if c = '"' then ['\\', '"']
  else if c = '\\' then ['\\', '\\']
  else if c = '\n' then ['\\', 'n']
  else if c = '\r' then ['\\', 'r']
  else if c = '\t' then ['\\', 't']
  else if c.toNat = 0 then ['\\', '0']
  else if isEscaped c then ['\\', 'u', '\x7b'] ++ hexDigits 6 c.toNat ++ ['\x7d']
  else [c]

/-- **A text between quotes**, with what would not show written out. -/
def quoted (s : String) : String :=
  String.ofList ('"' :: (s.toList.flatMap quoteChar ++ ['"']))

end TypedEval.Text
