import Seashell.Decimal.Notation
import Seashell.Value.Basic

set_option autoImplicit false

/-! # Reading JSON

`Json.parse` reads one JSON document. The last of equal keys counts, and control characters have to
be escaped inside strings. There is a limit to the digits of an integer and one to the nesting of
lists and mappings (`levelLimit`); a document that goes beyond one of them is refused where it does,
whatever follows.

A reader takes what it reads off the front of a text and gives it with the rest. Strings are read
character by character (`stringChar?`), where an escape by code unit may take two of them for one
character (`unitEscape?`). `value`, `items` and `entries` call each other for what is nested; as
each call has read something before, the length of the text is fuel enough for all of them. -/

namespace Seashell.Json

/-- Why a text has no `Value`. -/
inductive Fault where
  /-- The text breaks the rules of the format. -/
  | malformed
  /-- An integer has too many digits. -/
  | tooManyDigits
  /-- Lists and mappings are nested too deep. -/
  | tooDeep
deriving Repr, DecidableEq

/-- The levels of lists and mappings that a document may have; `value` counts them down. -/
def levelLimit : Nat := 990

/-- `s` without the white space at its start. -/
def skip (s : Text) : Text :=
  s.dropWhile fun c => c == ' ' || c == '\t' || c == '\n' || c == '\r'

/-! ## Strings -/

/-- The four hexadecimal digits of an escape, as a number, and what follows them. -/
def unit? : Text → Option (Nat × Text)
  | a :: b :: c :: d :: s => (Text.toNat? 16 [a, b, c, d]).map fun n => (n, s)
  | _ => none

/-- The character of the code point `n`, if it is no surrogate. -/
def char? (n : Nat) : Option Char :=
  if n < 0xD800 ∨ (0xE000 ≤ n ∧ n ≤ 0x10FFFF) then some (Char.ofNat n) else none

/-- The character of an escape by code unit, after the letter `u`: one unit, or a surrogate pair. -/
def unitEscape? (s : Text) : Option (Char × Text) := do
  let (high, s) ← unit? s
  if 0xD800 ≤ high ∧ high ≤ 0xDBFF then
    let s ← Text.after? "\\u" s
    let (low, s) ← unit? s
    if 0xDC00 ≤ low ∧ low ≤ 0xDFFF then
      let c ← char? (0x10000 + (high - 0xD800) * 0x400 + (low - 0xDC00))
      return (c, s)
    else none
  else
    let c ← char? high
    return (c, s)

/-- The character of a one-letter escape, as it stands behind a backslash. -/
def shortEscape? : Char → Option Char
  | '"' => some '"'
  | '\\' => some '\\'
  | '/' => some '/'
  | 'b' => some '\x08'
  | 'f' => some '\x0c'
  | 'n' => some '\n'
  | 'r' => some '\r'
  | 't' => some '\t'
  | _ => none

/-- One character inside a string, and what follows it; `none` for a control character or an unknown
    escape. -/
def stringChar? : Text → Option (Char × Text)
  | '\\' :: 'u' :: s => unitEscape? s
  | '\\' :: c :: s => (shortEscape? c).map fun d => (d, s)
  | '\\' :: [] => none
  | c :: s => if c.toNat < 0x20 then none else some (c, s)
  | [] => none

/-- The rest of a string after its opening quote, and what follows the closing one. The `fuel`
    bounds the number of characters. -/
def string? : Nat → Text → Option (Text × Text)
  | 0, _ => none
  | _ + 1, '"' :: s => some ([], s)
  | fuel + 1, s => do
    let (c, s) ← stringChar? s
    let (cs, s) ← string? fuel s
    return (c :: cs, s)

/-! ## Numbers -/

/-- Digits at the start of `s`, and what follows them. -/
def digits (s : Text) : Text × Text := (s.takeWhile Char.isDigit, s.dropWhile Char.isDigit)

/-- The digits after a point at the start of `s`, if there are any, and what follows them. -/
def fraction (s : Text) : Text × Text :=
  match s with
  | '.' :: r => if (digits r).1.isEmpty then ([], s) else digits r
  | _ => ([], s)

/-- The exponent at the start of `s`, if there is one. -/
def exponent? (s : Text) : Option (Int × Text) :=
  match s with
  | e :: r =>
    if e = 'e' ∨ e = 'E' then
      let (negative, r) := match r with
        | '-' :: r => (true, r)
        | '+' :: r => (false, r)
        | r => (false, r)
      match Text.toNat? 10 (digits r).1 with
      | some n => some (if negative then -(n : Int) else n, (digits r).2)
      | none => none
    else none
  | [] => none

/-- A number without its sign: an integer, unless there is a `fraction` or an `exponent?`. -/
def magnitude (s : Text) : Except Fault ((Nat ⊕ Float) × Text) :=
  let (whole, s) := match s with
    | '0' :: r => (['0'], r)
    | s => digits s
  match fraction s, exponent? (fraction s).2 with
  | (frac, _), some (e, s) =>
    if whole.isEmpty then .error .malformed else .ok (.inr (Decimal.ofParts whole frac e), s)
  | (frac, s), none =>
    if whole.isEmpty then .error .malformed
    else if !frac.isEmpty then .ok (.inr (Decimal.ofParts whole frac 0), s)
    else if Text.digitLimit < whole.length then .error .tooManyDigits
    else match Text.toNat? 10 whole with
      | some n => .ok (.inl n, s)
      | none => .error .malformed

/-- A number with its sign, by `magnitude`. -/
def number (s : Text) : Except Fault (Value × Text) :=
  match s with
  | '-' :: r => (magnitude r).map fun
    | (.inl n, s) => (.int (-(n : Int)), s)
    | (.inr x, s) => (.float (-x), s)
  | _ => (magnitude s).map fun
    | (.inl n, s) => (.int n, s)
    | (.inr x, s) => (.float x, s)

/-- The words that stand for values, by which `scalar` looks first. -/
def words : List (Text × Value) :=
  [("null".toList, .null), ("true".toList, .bool true), ("false".toList, .bool false),
    ("NaN".toList, .float (0.0 / 0.0)), ("Infinity".toList, .float (1.0 / 0.0)),
    ("-Infinity".toList, .float (-1.0 / 0.0))]

/-- One of the `words` or a number. -/
def scalar (s : Text) : Except Fault (Value × Text) :=
  match words.findSome? fun (w, v) => (Text.after? w s).map fun r => (v, r) with
  | some found => .ok found
  | none => number s

/-- A string after its opening quote, and what follows it, by `string?`. -/
def quoted (s : Text) : Except Fault (Text × Text) :=
  match string? (s.length + 1) s with
  | some found => .ok found
  | none => .error .malformed

/-! ## Documents -/

mutual

/-- A value at the start of a text, which may have `room` levels of lists and mappings, and what
    follows it. The `fuel` bounds the length of the value. -/
def value : Nat → Nat → Text → Except Fault (Value × Text)
  | 0, _, _ => .error .malformed
  | fuel + 1, room, s =>
    match s with
    | '"' :: s => do
      let (t, s) ← quoted s
      return (.text t, s)
    | '[' :: s =>
      if room = 0 then .error .tooDeep
      else match skip s with
        | ']' :: s => return (.list [], s)
        | s => do
          let (vs, s) ← items fuel (room - 1) s
          return (.list vs, s)
    | '{' :: s =>
      if room = 0 then .error .tooDeep
      else match skip s with
        | '}' :: s => return (.mapping [], s)
        | s => do
          let (es, s) ← entries fuel (room - 1) s
          return (.mapping (Value.collect es), s)
    | s => scalar s

/-- The items of a list up to its end, of which there is one at least, each by `value`. -/
def items : Nat → Nat → Text → Except Fault (List Value × Text)
  | 0, _, _ => .error .malformed
  | fuel + 1, room, s => do
    let (v, s) ← value fuel room s
    match skip s with
    | ',' :: s =>
      let (vs, s) ← items fuel room (skip s)
      return (v :: vs, s)
    | ']' :: s => return ([v], s)
    | _ => throw .malformed

/-- The entries of a mapping up to its end, of which there is one at least. A key is `quoted`. -/
def entries : Nat → Nat → Text → Except Fault (List (Value × Value) × Text)
  | 0, _, _ => .error .malformed
  | fuel + 1, room, s =>
    match s with
    | '"' :: s => do
      let (k, s) ← quoted s
      match skip s with
      | ':' :: s =>
        let (v, s) ← value fuel room (skip s)
        match skip s with
        | ',' :: s =>
          let (es, s) ← entries fuel room (skip s)
          return ((.text k, v) :: es, s)
        | '}' :: s => return ([(.text k, v)], s)
        | _ => throw .malformed
      | _ => throw .malformed
    | _ => .error .malformed

end

/-- The value of the JSON document `s`. -/
def parse (s : Text) : Except Fault Value := do
  let (v, rest) ← value (s.length + 1) levelLimit (skip s)
  if (skip rest).isEmpty then return v else throw .malformed

end Seashell.Json
