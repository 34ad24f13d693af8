set_option autoImplicit false

/-! # Shortest decimals

The decimal of a float is the one with the fewest significant digits among those that read back as
the same float; of several, the nearest one. The search runs over exact integers: `shortest` asks
for one, two, up to seventeen digits, and `withDigits?` tests the two decimals of that many digits
next to the value.

Which decimals read back as a float is known from its neighbours: those that are nearer to it than
to either of them, and at half of the way those of an even mantissa. `Binary` has what is needed of
a float for this, and `Ratio` is the arithmetic in which the distances are compared. -/

namespace Seashell.Decimal

/-- A positive float as an exact binary fraction `mantissa * 2 ^ exponent`, with the width of the
    gap below it. -/
structure Binary where
  mantissa : Nat
  exponent : Int
  /-- The next smaller float is only half as far away as the next larger one. -/
  narrowBelow : Bool

/-- The binary fraction of the bits of a finite float, its sign left out. -/
def Binary.ofBits (bits : UInt64) : Binary :=
  let n := bits.toNat
  let e : Nat := n / Nat.pow 2 52 % Nat.pow 2 11
  let f : Nat := n % Nat.pow 2 52
  if e = 0 then ⟨f, -1074, false⟩ else ⟨f + Nat.pow 2 52, (e : Int) - 1075, f = 0 ∧ 1 < e⟩

/-- A decimal `0.digits * 10 ^ point`. -/
structure Digits where
  digits : List Char
  point : Int

/-- A positive rational `num / den`. -/
structure Ratio where
  num : Nat
  den : Nat

/-- `n * base ^ e` as a rational. -/
def Ratio.scaled (n base : Nat) (e : Int) : Ratio :=
  match e with
  | .ofNat k => ⟨n * base.pow k, 1⟩
  | .negSucc k => ⟨n, base.pow (k + 1)⟩

/-- The order of rationals, by products across. -/
def Ratio.le (a b : Ratio) : Bool := a.num * b.den ≤ b.num * a.den

/-- The strict order of rationals; it is `Ratio.le` the other way round, negated. -/
def Ratio.lt (a b : Ratio) : Bool := a.num * b.den < b.num * a.den

/-- The distance of the rationals `a` and `b`. -/
def Ratio.distance (a b : Ratio) : Ratio :=
  ⟨(a.num * b.den - b.num * a.den) + (b.num * a.den - a.num * b.den), a.den * b.den⟩

/-- The power of ten just above a value: the smallest `e` with `value < 10 ^ e`. -/
def pointOf (value : Ratio) : Int :=
  match (List.range 660).find? fun (i : Nat) => value.lt (Ratio.scaled 1 10 (Int.ofNat i - 330)) with
  | some i => Int.ofNat i - 330
  | none => 330

/-- The decimal of `count` digits that reads back as the float and is nearest to it. -/
def withDigits? (b : Binary) (value : Ratio) (point : Int) (count : Nat) : Option Nat :=
  let unit := point - count
  let low := Ratio.scaled (4 * b.mantissa - if b.narrowBelow then 1 else 2) 2 (b.exponent - 2)
  let high := Ratio.scaled (4 * b.mantissa + 2) 2 (b.exponent - 2)
  let inside (d : Nat) : Bool :=
    let r := Ratio.scaled d 10 unit
    if b.mantissa % 2 = 0 then low.le r && r.le high else low.lt r && r.lt high
  let one := Ratio.scaled 1 10 unit
  let below := value.num * one.den / (value.den * one.num)
  let above := below + 1
  let near (d : Nat) : Ratio := (Ratio.scaled d 10 unit).distance value
  match inside below, inside above with
  | true, true =>
    if (near below).lt (near above) then some below
    else if (near above).lt (near below) then some above
    else if below % 2 = 0 then some below else some above
  | true, false => some below
  | false, true => some above
  | false, false => none

/-- The shortest decimal of a positive finite float, given by its `bits`. -/
def shortest (bits : UInt64) : Digits :=
  let b := Binary.ofBits bits
  let value := Ratio.scaled b.mantissa 2 b.exponent
  let point := pointOf value
  let found := (List.range 17).findSome? fun i =>
    (withDigits? b value point (i + 1)).map fun d => (i + 1, d)
  match found with
  | some (count, d) =>
    let text := Nat.toDigits 10 d
    ⟨(text.reverse.dropWhile (· == '0')).reverse, point + text.length - count⟩
  | none => ⟨['0'], 1⟩

end Seashell.Decimal
