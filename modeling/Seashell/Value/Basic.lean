import Seashell.Decimal.Shortest
import Seashell.Text.Decimal

set_option autoImplicit false

/-! # Values

Reports and settings are exchanged as documents, in JSON or in YAML. A document is a `Value`: a
scalar, a list, or a mapping that keeps the order of its entries. Keys may be values of any kind
that a format allows, and a report or a record of a trace is a mapping whose keys are texts
(`Value.record`).

`Value.same` is the equality by which keys are looked up (`lookup?`), entries are put (`put`) and
members of sets are told apart. It is not the equality of data: truth values count as numbers, an
integer may equal a float, and the order of the entries of a mapping does not count. -/

namespace Seashell

/-- A day of the calendar. -/
structure Date where
  year : Nat
  month : Nat
  day : Nat
deriving Repr, DecidableEq

/-- A day and a time of day, perhaps with the distance of its time zone in minutes. -/
structure Moment where
  date : Date
  hour : Nat
  minute : Nat
  second : Nat
  microsecond : Nat
  zone : Option Int
deriving Repr, DecidableEq

/-- What a document holds. -/
inductive Value where
  | null
  | bool (b : Bool)
  | int (n : Int)
  | float (x : Float)
  | text (t : Text)
  | date (d : Date)
  | moment (m : Moment)
  | list (items : List Value)
  | mapping (entries : List (Value × Value))
deriving Repr, Inhabited

namespace Value

/-- A mapping whose keys are texts; `field?` reads it. -/
def record (entries : List (Text × Value)) : Value :=
  .mapping (entries.map fun (k, v) => (.text k, v))

/-- A list of the texts `ts`. -/
def texts (ts : List Text) : Value := .list (ts.map .text)

/-- A number that is an integer, or a truth value taken as one. -/
def toInt? : Value → Option Int
  | .bool b => some (if b then 1 else 0)
  | .int n => some n
  | _ => none

/-- Equality of numbers: the integer `n` equals a float of exactly the same value. -/
def numberEq (n : Int) (x : Float) : Bool :=
  let b := Decimal.Binary.ofBits x.toBits
  let r := Decimal.Ratio.scaled b.mantissa 2 b.exponent
  x.isFinite && (x < 0.0) == (n < 0) && n.natAbs * r.den == r.num

/-- Equality of floats as members of collections: what is no number is the same as itself. -/
def floatEq (x y : Float) : Bool := x == y || (x.isNaN && y.isNaN)

mutual

/-- Equality of values. Truth values count as the numbers zero and one, an integer may equal a
    float, and mappings are compared without regard to order. -/
def same : Value → Value → Bool
  | .null, .null => true
  | .bool a, .bool b => a == b
  | .bool a, .int b => (if a then 1 else 0) == b
  | .int a, .bool b => a == (if b then 1 else 0)
  | .int a, .int b => a == b
  | .bool a, .float b => numberEq (if a then 1 else 0) b
  | .float a, .bool b => numberEq (if b then 1 else 0) a
  | .int a, .float b => numberEq a b
  | .float a, .int b => numberEq b a
  | .float a, .float b => floatEq a b
  | .text a, .text b => a == b
  | .date a, .date b => a == b
  | .moment a, .moment b => a == b
  | .list as, .list bs => sameItems as bs
  | .mapping as, .mapping bs => as.length == bs.length && within as bs
  | _, _ => false

/-- Two lists of equal items, by `same`. -/
def sameItems : List Value → List Value → Bool
  | [], [] => true
  | a :: as, b :: bs => same a b && sameItems as bs
  | _, _ => false

/-- Every entry of the first mapping has an equal entry in the second. -/
def within : List (Value × Value) → List (Value × Value) → Bool
  | [], _ => true
  | (k, v) :: as, bs => bs.any (fun e => same k e.1 && same v e.2) && within as bs

end

/-- The value under a key that is the `same` as `key`. -/
def lookup? (key : Value) : List (Value × Value) → Option Value
  | [] => none
  | (k, v) :: rest => if same k key then some v else lookup? key rest

/-- Puts `value` under `key`: in place if an equal key is there, at the end otherwise. -/
def put (key value : Value) : List (Value × Value) → List (Value × Value)
  | [] => [(key, value)]
  | (k, v) :: rest => if same k key then (k, value) :: rest else (k, v) :: put key value rest

/-- The mapping of some entries, `put` one after the other, so that the last of equal keys
    counts. -/
def collect (entries : List (Value × Value)) : List (Value × Value) :=
  entries.foldl (fun acc (k, v) => put k v acc) []

/-- The value under the text `name` of a mapping. -/
def field? (name : Text) : Value → Option Value
  | .mapping entries => lookup? (.text name) entries
  | _ => none

end Value
end Seashell
