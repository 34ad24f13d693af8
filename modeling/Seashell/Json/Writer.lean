import Seashell.Decimal.Notation
import Seashell.Text.Literal
import Seashell.Value.Coerce
import Seashell.Value.Display

set_option autoImplicit false

/-! # Writing JSON

Values are written on one line, with a blank after each comma and colon and with ASCII characters
only: `stringChar` escapes all others, those beyond the first plane by a pair of code units.
`Json.render` is this notation.

It says nothing of values that have none. Days and moments are among them, and mappings whose keys
have no order, since entries are written in the order of their keys (`isExpressible`); and an
integer can have more digits than may be written (`Value.isWritable`). `Json.render?` asks for both
before it renders. -/

namespace Seashell.Json

/-- The code unit `n` as an escape. -/
def unitEscape (n : Nat) : Text := "\\u" ++ Text.hexLower 4 n

/-- The character `c` of a string. -/
def stringChar (c : Char) : Text :=
  if c = '"' then "\\\""
  else if c = '\\' then "\\\\"
  else if c = '\n' then "\\n"
  else if c = '\r' then "\\r"
  else if c = '\t' then "\\t"
  else if c = '\x0c' then "\\f"
  else if c = '\x08' then "\\b"
  else if 0x20 ≤ c.toNat ∧ c.toNat ≤ 0x7E then [c]
  else if c.toNat ≤ 0xFFFF then unitEscape c.toNat
  else
    let n := c.toNat - 0x10000
    unitEscape (0xD800 + n / 0x400) ++ unitEscape (0xDC00 + n % 0x400)

/-- The string `t` in quotes, `stringChar` by `stringChar`. -/
def string (t : Text) : Text := "\"" ++ t.flatMap stringChar ++ "\""

/-- The float `x`; there is no other notation for those that are not finite. -/
def float (x : Float) : Text :=
  if x.isNaN then "NaN"
  else if x.isInf then (if x < 0.0 then "-Infinity" else "Infinity")
  else Decimal.ofFloat x

/-- A scalar as the key of an entry, always in quotes. -/
def key : Value → Text
  | .text t => string t
  | .null => "\"null\""
  | .bool b => if b then "\"true\"" else "\"false\""
  | .int n => "\"" ++ Text.ofInt n ++ "\""
  | .float x => "\"" ++ float x ++ "\""
  | _ => "\"\""

mutual

/-- A value on one line, the entries of mappings in the order in which they are. -/
def render : Value → Text
  | .null => "null"
  | .bool b => if b then "true" else "false"
  | .int n => Text.ofInt n
  | .float x => float x
  | .text t => string t
  | .date _ => "null"
  | .moment _ => "null"
  | .list items => "[" ++ Text.join ", " (renderItems items) ++ "]"
  | .mapping entries => "\x7b" ++ Text.join ", " (renderEntries entries) ++ "\x7d"

/-- The items of a list, each by `render`. -/
def renderItems : List Value → List Text
  | [] => []
  | v :: vs => render v :: renderItems vs

/-- The entries of a mapping, each by `key` and `render`. -/
def renderEntries : List (Value × Value) → List Text
  | [] => []
  | (k, v) :: rest => (key k ++ ": " ++ render v) :: renderEntries rest

end

/-! ## What cannot be written -/

/-- The value is no day and no moment. -/
def isTimeless : Value → Bool
  | .date _ => false
  | .moment _ => false
  | _ => true

mutual

/-- There is a notation for the value: it holds no days or moments, and the keys of its mappings
    have an order. -/
def isExpressible : Value → Bool
  | .list items => itemsExpressible items
  | .mapping entries =>
    (Value.sort (entries.map (·.1))).isOk && entriesExpressible entries
  | v => isTimeless v

/-- There is a notation for all items of a list. -/
def itemsExpressible : List Value → Bool
  | [] => true
  | v :: vs => isExpressible v && itemsExpressible vs

/-- There is a notation for all entries of a mapping. -/
def entriesExpressible : List (Value × Value) → Bool
  | [] => true
  | (k, v) :: rest => isTimeless k && isExpressible v && entriesExpressible rest

end

/-- Why `render?` cannot write a value. -/
inductive Unwritable where
  /-- There is no notation for it (`isExpressible`). -/
  | inexpressible
  /-- An integer has too many digits. -/
  | tooManyDigits
deriving Repr, DecidableEq

/-- The value `v` on one line, if it can be written. -/
def render? (v : Value) : Except Unwritable Text :=
  if !isExpressible v then .error .inexpressible
  else if !v.isWritable then .error .tooManyDigits
  else .ok (render v)

end Seashell.Json
