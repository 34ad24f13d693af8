import Seashell.Decimal.Notation
import Seashell.Text.Scan
import Seashell.Value.Basic

set_option autoImplicit false

/-! # Plain scalars of YAML

A scalar without quotes may stand for something else than a text: the words and number formats of
YAML 1.1 decide, in the order in which `kind` asks for them. The writer puts a text in quotes if its
`kind` is not that of a text (`styleOf`); the reader builds the value (`plainValue`).

The formats are recognised here and nothing is built: integers in five bases (`isInt`), floats with
a point or in base sixty (`isFloat`), dates and moments (`isDate`, `isDateTime`), and the words for
truth values and for nothing (`truthWords`, `nullWords`). -/

namespace Seashell.Yaml

open Text

/-- What a plain scalar stands for. -/
inductive Kind where
  | null
  | bool
  | int
  | float
  | timestamp
  /-- `<<`, which merges mappings. -/
  | merge
  /-- `=`, which marks the main entry of a mapping. -/
  | mark
  | text
deriving Repr, DecidableEq

/-! ## Formats -/

/-- The text after a sign, if there is one. -/
def unsigned : Text → Text
  | '-' :: s => s
  | '+' :: s => s
  | s => s

/-- A digit or an underscore, which is ignored. -/
def isSpacedDigit (c : Char) : Bool := c.isDigit || c == '_'

/-- A digit of `base`, or an underscore. -/
def isSpacedDigitOf (base : Nat) (c : Char) : Bool := (digitValue? base c).isSome || c == '_'

/-- The text `s` is not empty and all of its characters are of the class `p`. -/
def isRunOf (p : Char → Bool) (s : Text) : Bool := !s.isEmpty && s.all p

/-- One of the digits from zero to fifty-nine. -/
def isSixtieth : Text → Bool
  | [d] => d.isDigit
  | [t, d] => '0' ≤ t && t ≤ '5' && d.isDigit
  | _ => false

/-- A decimal integer that does not begin with zero, perhaps with underscores (`isSpacedDigit`). -/
def isPositive : Text → Bool
  | c :: cs => '1' ≤ c && c ≤ '9' && cs.all isSpacedDigit
  | [] => false

/-- Digits of which the first is no underscore. -/
def isDigits : Text → Bool
  | c :: cs => c.isDigit && cs.all isSpacedDigit
  | [] => false

/-- An integer: binary, octal, decimal, hexadecimal or in base sixty. -/
def isInt (s : Text) : Bool :=
  match unsigned s with
  | '0' :: rest =>
    rest.isEmpty || rest.all (isSpacedDigitOf 8) || (match rest with
      | 'b' :: ds => isRunOf (isSpacedDigitOf 2) ds
      | 'x' :: ds => isRunOf (isSpacedDigitOf 16) ds
      | _ => false)
  | t => match List.splitOn ':' t with
    | first :: others => isPositive first && others.all isSixtieth
    | [] => false

/-- Nothing, or an exponent with its sign. -/
def isExponent : Text → Bool
  | [] => true
  | e :: sign :: ds =>
    (e == 'e' || e == 'E') && (sign == '-' || sign == '+') && isRunOf Char.isDigit ds
  | _ => false

/-- Digits after a point, perhaps none, and an exponent, perhaps none (`isExponent`). -/
def isFraction (s : Text) : Bool := isExponent (s.dropWhile isSpacedDigit)

/-- A float: decimal with a point, in base sixty, infinite, or no number. -/
def isFloat (s : Text) : Bool :=
  [".nan".toList, ".NaN".toList, ".NAN".toList].contains s
    || [".inf".toList, ".Inf".toList, ".INF".toList].contains (unsigned s)
    || (match s with
      | '.' :: c :: cs => c.isDigit && isFraction cs
      | _ => false)
    || (match upTo? '.' (unsigned s) with
      | some (whole, frac) =>
        (isDigits whole && isFraction frac) || (match List.splitOn ':' whole with
          | first :: second :: others =>
            isDigits first && (second :: others).all isSixtieth && frac.all isSpacedDigit
          | _ => false)
      | none => false)

/-- The words for truth values. -/
def truthWords : List (Text × Bool) :=
  (["yes", "Yes", "YES", "true", "True", "TRUE", "on", "On", "ON"].map fun w => (w.toList, true)) ++
  (["no", "No", "NO", "false", "False", "FALSE", "off", "Off", "OFF"].map fun w => (w.toList, false))

/-- The words for nothing. -/
def nullWords : List Text := ["".toList, "~".toList, "null".toList, "Null".toList, "NULL".toList]

/-- From `least` up to `most` digits. -/
def isDigitGroup (least most : Nat) (s : Text) : Bool :=
  least ≤ s.length && s.length ≤ most && s.all Char.isDigit

/-- A date with all its digits: four, two and two. -/
def isDate (s : Text) : Bool :=
  match List.splitOn '-' s with
  | [y, m, d] => isDigitGroup 4 4 y && isDigitGroup 2 2 m && isDigitGroup 2 2 d
  | _ => false

/-- Nothing, or a time zone after blanks. -/
def isZone (s : Text) : Bool :=
  s.isEmpty || (match s.dropWhile (fun c => c == ' ' || c == '\t') with
    | ['Z'] => true
    | sign :: rest =>
      (sign == '-' || sign == '+') && (match List.splitOn ':' rest with
        | [h] => isDigitGroup 1 2 h
        | [h, m] => isDigitGroup 1 2 h && isDigitGroup 2 2 m
        | _ => false)
    | [] => false)

/-- A time of day, perhaps with a fraction of a second and a time zone (`isZone`). -/
def isTime (s : Text) : Bool :=
  let hour := s.takeWhile Char.isDigit
  match s.dropWhile Char.isDigit with
  | ':' :: m₁ :: m₂ :: ':' :: s₁ :: s₂ :: rest =>
    isDigitGroup 1 2 hour && [m₁, m₂, s₁, s₂].all Char.isDigit && (match rest with
      | '.' :: rest => isZone (rest.dropWhile Char.isDigit)
      | rest => isZone rest)
  | _ => false

/-- A date and a time of day (`isTime`), with a letter or blanks between them. -/
def isDateTime (s : Text) : Bool :=
  let date := s.takeWhile fun c => c.isDigit || c == '-'
  let dated := match List.splitOn '-' date with
    | [y, m, d] => isDigitGroup 4 4 y && isDigitGroup 1 2 m && isDigitGroup 1 2 d
    | _ => false
  dated && (match s.dropWhile fun c => c.isDigit || c == '-' with
    | c :: rest =>
      if c = 'T' ∨ c = 't' then isTime rest
      else if c = ' ' ∨ c = '\t' then isTime (rest.dropWhile fun c => c == ' ' || c == '\t')
      else false
    | [] => false)

/-- What the plain scalar `s` stands for. -/
def kind (s : Text) : Kind :=
  if nullWords.contains s then .null
  else if (truthWords.lookup s).isSome then .bool
  else if isFloat s then .float
  else if isInt s then .int
  else if isDate s || isDateTime s then .timestamp
  else if s = "<<".toList then .merge
  else if s = "=".toList then .mark
  else .text

end Seashell.Yaml
