import Seashell.Text.Basic

set_option autoImplicit false

/-! # Decimal integers

Integers are written in decimal, without leading zeros and with a minus sign where needed (`ofInt`),
and read from digits of any base up to sixteen (`toNat?`).

Where documents and settings are read there is a limit to the digits of an integer, `digitLimit`,
and with it a bound to its size, `digitBound`. The bound has a name because it is never to be
computed. -/

namespace Seashell.Text

/-- The natural number `n` in decimal. -/
def ofNat (n : Nat) : Text := Nat.toDigits 10 n

/-- An integer in decimal, by `ofNat`. -/
def ofInt : Int → Text
  | .ofNat n => ofNat n
  | .negSucc n => '-' :: ofNat (n + 1)

/-- The most digits that a decimal integer may have where documents and settings are read. -/
def digitLimit : Nat := 4300

/-- The least number with more digits than `digitLimit`. -/
def digitBound : Nat := Nat.pow 10 digitLimit

/-- The value of the digit `c` in a `base` of at most sixteen. -/
def digitValue? (base : Nat) (c : Char) : Option Nat :=
  let v :=
    if c.isDigit then c.toNat - '0'.toNat
    else if 'a' ≤ c ∧ c ≤ 'f' then c.toNat - 'a'.toNat + 10
    else if 'A' ≤ c ∧ c ≤ 'F' then c.toNat - 'A'.toNat + 10
    else base
  if v < base then some v else none

/-- Reads digits of a `base`, continuing from the number read so far. -/
def toNatFrom? (base : Nat) : Nat → Text → Option Nat
  | n, [] => some n
  | n, c :: cs => (digitValue? base c).bind fun d => toNatFrom? base (n * base + d) cs

/-- The number that a non-empty run of digits of a `base` stands for. -/
def toNat? (base : Nat) (s : Text) : Option Nat :=
  if s.isEmpty then none else toNatFrom? base 0 s

end Seashell.Text
