import Seashell.Decimal.Shortest
import Seashell.Text.Decimal

set_option autoImplicit false

/-! # Notation of floats

Floats are written with their shortest decimal (`shortest`). From one ten-thousandth up to below ten
to the sixteenth the notation is `positional`, with at least one digit after the point; otherwise it
is `scientific`, with an exponent of at least two digits and a sign. `ofFloat` chooses between the
two.

In the other direction `toFloat` finds the float nearest to a decimal, and `ofParts` does so for one
that was read as digits before the point, digits after it and an exponent. Numbers that are far too
large or too small are decided by their size, before any power of ten is made. -/

namespace Seashell.Decimal

/-- Zeros. -/
def zeros (n : Nat) : Text := List.replicate n '0'

/-- The decimal `d` in positional notation. -/
def positional (d : Digits) : Text :=
  match d.point with
  | .negSucc k => "0." ++ zeros (k + 1) ++ d.digits
  | .ofNat p =>
    if p = 0 then "0." ++ d.digits
    else if d.digits.length ≤ p then d.digits ++ zeros (p - d.digits.length) ++ ".0"
    else d.digits.take p ++ "." ++ d.digits.drop p

/-- The decimal `d` with an exponent. -/
def scientific (d : Digits) : Text :=
  let e := d.point - 1
  let size := Text.ofNat e.natAbs
  let mantissa := match d.digits with
    | [c] => [c]
    | c :: cs => c :: '.' :: cs
    | [] => []
  mantissa ++ "e" ++ (if e < 0 then "-".toList else "+".toList) ++ zeros (2 - size.length) ++ size

/-- The text of the float `x`, which may also be infinite or no number. -/
def ofFloat (x : Float) : Text :=
  if x.isNaN then "nan"
  else
    let bits := x.toBits
    let sign : Text := if bits.toNat / Nat.pow 2 63 = 1 then "-" else []
    let magnitude := UInt64.ofNat (bits.toNat % Nat.pow 2 63)
    if x.isInf then sign ++ "inf"
    else if magnitude = 0 then sign ++ "0.0"
    else
      let d := shortest magnitude
      sign ++ (if -4 < d.point ∧ d.point ≤ 16 then positional d else scientific d)

/-- The float nearest to `n * 10 ^ e`. -/
def toFloat (n : Nat) (e : Int) : Float :=
  let size : Int := (Nat.toDigits 10 n).length
  if n = 0 ∨ size + e < -400 then 0.0
  else if 400 < size + e then 1.0 / 0.0
  else match e with
    | .ofNat k => Float.ofScientific n false k
    | .negSucc k => Float.ofScientific n true (k + 1)

/-- The float nearest to a number given by its digits before and after the point and its exponent,
    by `toFloat`. -/
def ofParts (whole frac : Text) (e : Int) : Float :=
  toFloat ((Text.toNatFrom? 10 0 (whole ++ frac)).getD 0) (e - frac.length)

end Seashell.Decimal
