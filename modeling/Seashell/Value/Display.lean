import Seashell.Decimal.Notation
import Seashell.Text.Literal
import Seashell.Value.Basic

set_option autoImplicit false

/-! # Values as text

A setting may be given as any value; what counts is its text, `Value.display`. A text stands for
itself; inside lists and mappings texts are quoted literals, and days and moments are written by
their parts (`Value.literal`).

An integer can have more digits than may be written. `Value.isWritable` says that there is none such
in a value, however deep; what `display` gives is only used where that holds. -/

namespace Seashell

/-- The number `n` with leading zeros. -/
def Date.padded (width n : Nat) : Text :=
  let digits := Text.ofNat n
  Decimal.zeros (width - digits.length) ++ digits

/-- The date `d` as year, month and day. -/
def Date.text (d : Date) : Text :=
  Date.padded 4 d.year ++ "-" ++ Date.padded 2 d.month ++ "-" ++ Date.padded 2 d.day

/-- The distance of a time zone. -/
def Moment.zoneText : Option Int → Text
  | none => []
  | some m =>
    (if m < 0 then "-".toList else "+".toList) ++ Date.padded 2 (m.natAbs / 60) ++ ":" ++
      Date.padded 2 (m.natAbs % 60)

/-- The moment `m` as date, time and time zone. -/
def Moment.text (m : Moment) : Text :=
  m.date.text ++ " " ++ Date.padded 2 m.hour ++ ":" ++ Date.padded 2 m.minute ++ ":" ++
    Date.padded 2 m.second ++
    (if m.microsecond = 0 then [] else '.' :: Date.padded 6 m.microsecond) ++ Moment.zoneText m.zone

/-- The time zone of a moment as part of a list or mapping. -/
def Moment.zoneLiteral : Option Int → List Text
  | none => []
  | some m =>
    if m = 0 then ["tzinfo=datetime.timezone.utc".toList]
    else
      let days : Text := if m < 0 then "days=-1, " else []
      ["tzinfo=datetime.timezone(datetime.timedelta(" ++ days ++ "seconds=" ++
        Text.ofInt (m.emod 1440 * 60) ++ "))"]

/-- The moment `m` as part of a list or mapping. -/
def Moment.literal (m : Moment) : Text :=
  let parts := [m.date.year, m.date.month, m.date.day, m.hour, m.minute]
    ++ (if m.second = 0 ∧ m.microsecond = 0 then [] else [m.second])
    ++ (if m.microsecond = 0 then [] else [m.microsecond])
  "datetime.datetime(" ++ Text.join ", " (parts.map Text.ofNat ++ Moment.zoneLiteral m.zone) ++ ")"

namespace Value

mutual

/-- A value as part of a list or mapping, in the way of `Text.literal`. -/
def literal : Value → Text
  | .null => "None"
  | .bool b => if b then "True" else "False"
  | .int n => Text.ofInt n
  | .float x => Decimal.ofFloat x
  | .text t => Text.literal t
  | .date d =>
    "datetime.date(" ++ Text.ofNat d.year ++ ", " ++ Text.ofNat d.month ++ ", " ++ Text.ofNat d.day ++
      ")"
  | .moment m => m.literal
  | .list items => "[" ++ Text.join ", " (itemLiterals items) ++ "]"
  | .mapping entries => "\x7b" ++ Text.join ", " (entryLiterals entries) ++ "\x7d"

/-- The items of a list, each by `literal`. -/
def itemLiterals : List Value → List Text
  | [] => []
  | v :: vs => literal v :: itemLiterals vs

/-- The entries of a mapping, key and value by `literal`. -/
def entryLiterals : List (Value × Value) → List Text
  | [] => []
  | (k, v) :: rest => (literal k ++ ": " ++ literal v) :: entryLiterals rest

end

/-- The text of a value by itself; it is `literal` for all but texts, days and moments. -/
def display : Value → Text
  | .text t => t
  | .date d => d.text
  | .moment m => m.text
  | v => literal v

mutual

/-- No integer in the value has more digits than can be written (`Text.digitBound`). -/
def isWritable : Value → Bool
  | .int n => n.natAbs < Text.digitBound
  | .list items => itemsWritable items
  | .mapping entries => entriesWritable entries
  | _ => true

/-- All items of a list can be written (`isWritable`). -/
def itemsWritable : List Value → Bool
  | [] => true
  | v :: vs => isWritable v && itemsWritable vs

/-- All entries of a mapping can be written (`isWritable`). -/
def entriesWritable : List (Value × Value) → Bool
  | [] => true
  | (k, v) :: rest => isWritable k && isWritable v && entriesWritable rest

end

end Value
end Seashell
