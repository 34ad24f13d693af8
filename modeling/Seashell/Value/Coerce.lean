import Seashell.Value.Basic

set_option autoImplicit false

/-! # Values taken as collections

A document may hold any value where a list, a set or a mapping is expected. A text counts as the
list of its characters and a mapping as the list of its keys (`Value.toItems`); a list of pairs
counts as a mapping (`Value.toEntries`). What cannot be taken so is a `Mismatch`.

A set is kept in the order in which its members came (`Value.toMembers`), and only what is no
collection itself can be a member. Where a set is written its members need an order, which numbers,
texts and dates have among themselves only (`Value.sort`). -/

namespace Seashell

/-- Why a value cannot be taken as what is expected. -/
inductive Mismatch where
  /-- An attribute is asked of something that has none. -/
  | notMapping
  /-- A value of this kind cannot be used here. -/
  | wrongKind
  /-- A pair has more or fewer than two parts. -/
  | wrongLength
  /-- An entry is not there. -/
  | missing (key : Text)
deriving Repr, DecidableEq

namespace Value

/-- The items that a value consists of; `none` for a scalar that is no text. -/
def items? : Value → Option (List Value)
  | .text t => some (t.map fun c => .text [c])
  | .list vs => some vs
  | .mapping es => some (es.map (·.1))
  | _ => none

/-- The value `v` as a list, by `items?`. -/
def toItems (v : Value) : Except Mismatch (List Value) :=
  match v.items? with
  | some vs => .ok vs
  | none => .error .wrongKind

/-- The value can be a member of a set or the key of a mapping. -/
def isAtom : Value → Bool
  | .list _ => false
  | .mapping _ => false
  | _ => true

/-- Adds the member `v` to a set, kept in order of arrival. -/
def addMember (members : List Value) (v : Value) : List Value :=
  if members.any (same · v) then members else members ++ [v]

/-- The value `v` as a set, by `addMember`. -/
def toMembers (v : Value) : Except Mismatch (List Value) := do
  let vs ← v.toItems
  if vs.all isAtom then return vs.foldl addMember [] else throw .wrongKind

/-- The value `v` as a pair of a key and a value. -/
def toPair (v : Value) : Except Mismatch (Value × Value) := do
  match ← v.toItems with
  | [k, w] => if k.isAtom then return (k, w) else throw .wrongKind
  | _ => throw .wrongLength

/-- The value as the entries of a mapping; a list is one of pairs, by `toPair`. -/
def toEntries : Value → Except Mismatch (List (Value × Value))
  | .mapping es => .ok es
  | v => do
    let pairs ← (← v.toItems).mapM toPair
    return collect pairs

/-! ## Order -/

/-- Kinds of values that have an order among themselves. -/
inductive OrderClass where
  | number
  | text
  | date
  | moment
deriving DecidableEq

/-- The kind of a value in an order, for `sort`. -/
def orderClass? : Value → Option OrderClass
  | .bool _ => some .number
  | .int _ => some .number
  | .float _ => some .number
  | .text _ => some .text
  | .date _ => some .date
  | .moment _ => some .moment
  | _ => none

/-- A number as a float. -/
def toFloat : Value → Float
  | .bool b => if b then 1.0 else 0.0
  | .int n => Float.ofInt n
  | .float x => x
  | _ => 0.0

/-- The order of two values of one `OrderClass`. -/
def le : Value → Value → Bool
  | .text a, .text b => !decide (b < a)
  | .date a, .date b => !decide ([b.year, b.month, b.day] < [a.year, a.month, a.day])
  | a, b =>
    match a.toInt?, b.toInt? with
    | some m, some n => decide (m ≤ n)
    | _, _ => a.toFloat ≤ b.toFloat

/-- The values in the ascending order of `le`; values of several kinds have none. -/
def sort (vs : List Value) : Except Mismatch (List Value) :=
  match vs with
  | [] => .ok []
  | [v] => .ok [v]
  | v :: w :: rest =>
    match v.orderClass? with
    | none => .error .wrongKind
    | some c =>
      if (w :: rest).all (·.orderClass? == some c) then .ok ((v :: w :: rest).mergeSort le)
      else .error .wrongKind

end Value
end Seashell
