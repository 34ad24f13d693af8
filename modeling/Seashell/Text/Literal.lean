import Seashell.Text.Printable

set_option autoImplicit false

/-! # Quoted literals

Messages show a text as a literal in single quotes, or in double quotes if it holds a single quote
and no double quote (`literalQuote`). The chosen quote and the backslash are escaped, line feed,
carriage return and tab have short escapes, and every other character that is not printable
(`isPrintable`) is written in hexadecimal. `literalChar` says so for each character, and
`Text.literal` puts them together. -/

namespace Seashell.Text

/-- The code point in lower-case hexadecimal, filled up with zeros to `width` digits. -/
def hexLower (width n : Nat) : Text :=
  let digits := Nat.toDigits 16 n
  List.replicate (width - digits.length) '0' ++ digits

/-- The escape of a character by its code point: two, four or eight hexadecimal digits. -/
def codePointEscape (c : Char) : Text :=
  if c.toNat ≤ 0xFF then "\\x" ++ hexLower 2 c.toNat
  else if c.toNat ≤ 0xFFFF then "\\u" ++ hexLower 4 c.toNat
  else "\\U" ++ hexLower 8 c.toNat

/-- One character of a literal in quotes `q`. -/
def literalChar (q c : Char) : Text :=
  if c = q ∨ c = '\\' then ['\\', c]
  else if c = '\n' then "\\n"
  else if c = '\r' then "\\r"
  else if c = '\t' then "\\t"
  else if isPrintable c then [c]
  else codePointEscape c

/-- The quote character of the literal for `s`. -/
def literalQuote (s : Text) : Char :=
  if s.contains '\'' && !s.contains '"' then '"' else '\''

/-- The text `s` as a quoted literal. -/
def literal (s : Text) : Text :=
  let q := literalQuote s
  q :: s.flatMap (literalChar q) ++ [q]

end Seashell.Text
