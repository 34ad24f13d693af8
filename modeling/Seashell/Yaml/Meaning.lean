import Seashell.Yaml.Node
import Seashell.Yaml.Scalar

set_option autoImplicit false

/-! # The values of nodes

A plain scalar stands for what its format says (`plainValue`, by its `kind`), any other scalar for
its text. The key `<<` merges the entries of other mappings into its own: they come first, so that
an entry of the mapping itself counts more (`Entries`).

Not every node has a value: a date may be impossible, a key may be a list. Of several faults the one
nearest to the root counts, and of those at one depth the first. So the value of a node is found as
an `Outcome`, which has the depth of its fault, and outcomes are put together by `Outcome.both` and
`Outcome.all`. `Node.value` forgets the depth. -/

namespace Seashell.Yaml

open Text

/-! ## Scalars -/

/-- The digits of the number `s`, without the underscores. -/
def digitsOf (s : Text) : Text := s.filter (· != '_')

/-- The sign of the number `s`. -/
def signOf (s : Text) : Int := if s.head? = some '-' then -1 else 1

/-- The number `s` in decimal, unless it has more digits than `digitLimit`. -/
def decimal? (s : Text) : Option Nat := if digitLimit < s.length then none else toNat? 10 s

/-- The value of the number `s` without its sign, in the base that it is written in. -/
def magnitude? (s : Text) : Option Nat :=
  match s with
  | ['0'] => some 0
  | '0' :: 'b' :: ds => toNat? 2 ds
  | '0' :: 'x' :: ds => toNat? 16 ds
  | '0' :: ds => toNat? 8 ds
  | _ => (List.splitOn ':' s).foldlM (fun n part => (decimal? part).map (n * 60 + ·)) 0

/-- The value of the integer `s`, by `magnitude?`. -/
def intValue (s : Text) : Except Fault Value :=
  match magnitude? (unsigned (digitsOf s)) with
  | some n => .ok (.int (signOf s * n))
  | none => .error .impossible

/-- The value of the decimal `s` with a point, without its sign. -/
def decimalValue (s : Text) : Float :=
  let whole := s.takeWhile Char.isDigit
  match s.dropWhile Char.isDigit with
  | '.' :: rest =>
    let frac := rest.takeWhile Char.isDigit
    match rest.dropWhile Char.isDigit with
    | _ :: sign :: ds =>
      let e : Int := (toNat? 10 ds).getD 0
      Decimal.ofParts whole frac (if sign = '-' then -e else e)
    | _ => Decimal.ofParts whole frac 0
  | _ => Decimal.ofParts whole [] 0

/-- Adds up parts in base sixty, the last of which stands first and counts `base`. -/
def sixtieths (x : Float) (base : Nat) : List Text → Except Fault Float
  | [] => .ok x
  | part :: parts =>
    if (Float.ofNat base).isInf then .error .tooLarge
    else sixtieths (x + decimalValue part * Float.ofNat base) (base * 60) parts

/-- The value of the float `s`. -/
def floatValue (s : Text) : Except Fault Value := do
  let s := digitsOf s
  let t := unsigned s
  let x ←
    if t.any (fun c => c == 'n' || c == 'N') && t.any (fun c => c == 'a' || c == 'A') then
      pure (0.0 / 0.0)
    else if t.any (fun c => c == 'i' || c == 'I') then pure (1.0 / 0.0)
    else sixtieths 0.0 1 (List.splitOn ':' t).reverse
  return .float (if s.head? = some '-' then -x else x)

/-- The number of days of `month`. -/
def daysIn (year month : Nat) : Nat :=
  if month = 2 then
    if year % 4 = 0 ∧ (year % 100 ≠ 0 ∨ year % 400 = 0) then 29 else 28
  else if month = 4 ∨ month = 6 ∨ month = 9 ∨ month = 11 then 30
  else 31

/-- A number in decimal; zero if there are no digits. -/
def number (s : Text) : Nat := (toNat? 10 s).getD 0

/-- The date of a text `s` with two hyphens, if there is such a day (`daysIn`). -/
def dateOf? (s : Text) : Option Date :=
  match List.splitOn '-' s with
  | [y, m, d] =>
    let date : Date := ⟨number y, number m, number d⟩
    if 1 ≤ date.year ∧ 1 ≤ date.month ∧ date.month ≤ 12 ∧ 1 ≤ date.day
        ∧ date.day ≤ daysIn date.year date.month then some date else none
  | _ => none

/-- The distance of a time zone, in minutes. -/
def zoneOf? (s : Text) : Option (Option Int) :=
  match s.dropWhile (fun c => c == ' ' || c == '\t') with
  | [] => some none
  | ['Z'] => some (some 0)
  | sign :: rest =>
    let minutes := match List.splitOn ':' rest with
      | [h, m] => number h * 60 + number m
      | _ => number rest * 60
    if minutes < 1440 then some (some (if sign = '-' then -(minutes : Int) else minutes)) else none

/-- The moment of a date and a time of day, by `dateOf?` and `zoneOf?`. -/
def momentOf? (s : Text) : Option Moment := do
  let date ← dateOf? (s.takeWhile fun c => c.isDigit || c == '-')
  let time := (s.dropWhile fun c => c.isDigit || c == '-').dropWhile (!·.isDigit)
  let hour := time.takeWhile Char.isDigit
  match time.dropWhile Char.isDigit with
  | _ :: m₁ :: m₂ :: _ :: s₁ :: s₂ :: rest =>
    let (frac, rest) := match rest with
      | '.' :: rest => (rest.takeWhile Char.isDigit, rest.dropWhile Char.isDigit)
      | rest => ([], rest)
    let zone ← zoneOf? rest
    let micro := (frac ++ List.replicate 6 '0').take 6
    let moment : Moment :=
      ⟨date, number hour, number [m₁, m₂], number [s₁, s₂], number micro, zone⟩
    if moment.hour < 24 ∧ moment.minute < 60 ∧ moment.second < 60 then return moment else none
  | _ => none

/-- The value of the date or moment `s`. -/
def timestampValue (s : Text) : Except Fault Value :=
  if isDate s then
    match dateOf? s with
    | some d => .ok (.date d)
    | none => .error .impossible
  else
    match momentOf? s with
    | some m => .ok (.moment m)
    | none => .error .impossible

/-- The value of the plain scalar `s`, by its `kind`. -/
def plainValue (s : Text) : Except Fault Value :=
  match kind s with
  | .null => .ok .null
  | .bool => .ok (.bool ((truthWords.lookup s).getD false))
  | .int => intValue s
  | .float => floatValue s
  | .timestamp => timestampValue s
  | .merge => .error .malformed
  | .mark => .error .malformed
  | .text => .ok (.text s)

/-! ## Outcomes -/

/-- What a node comes to: a value, or a fault and its depth below the node. -/
abbrev Outcome (α : Type) := Except (Nat × Fault) α

namespace Outcome

/-- The fault `f` of the node itself. -/
def ofFault {α : Type} (f : Fault) : Outcome α := .error (0, f)

/-- The outcome as part of a list or mapping. -/
def deepen {α : Type} : Outcome α → Outcome α
  | .ok a => .ok a
  | .error (depth, f) => .error (depth + 1, f)

/-- Both of two outcomes, or the fault that counts: the one of less depth, or the first. -/
def both {α β : Type} : Outcome α → Outcome β → Outcome (α × β)
  | .ok a, .ok b => .ok (a, b)
  | .error e, .ok _ => .error e
  | .ok _, .error e => .error e
  | .error e, .error f => .error (if f.1 < e.1 then f else e)

/-- All of several outcomes, or the fault that counts, by `both`. -/
def all {α : Type} : List (Outcome α) → Outcome (List α)
  | [] => .ok []
  | x :: xs => (x.both (all xs)).map fun (a, as) => a :: as

end Outcome

/-! ## Values -/

/-- The outcome of the plain scalar `t`. -/
def plainOutcome (t : Text) : Outcome Value := (plainValue t).mapError fun f => (0, f)

/-- The outcome of a key. The mark `=` is a text, and lists and mappings are no keys. -/
def keyOutcome : Node → Outcome Value
  | .plain t => if t = ['='] then .ok (.text t) else plainOutcome t
  | .literal t => .ok (.text t)
  | _ => .ofFault .malformed

/-- The key asks to merge. -/
def isMerge : Node → Bool
  | .plain t => t == ['<', '<']
  | _ => false

/-- The outcomes of the entries of a mapping: those merged into it, and its own. -/
structure Entries where
  merged : List (Outcome (Value × Value))
  own : List (Outcome (Value × Value))

/-- All entries in the order in which they count: `merged` before `own`. -/
def Entries.list (es : Entries) : List (Outcome (Value × Value)) := es.merged ++ es.own

mutual

/-- The outcome of a node, from those of its parts. -/
def Node.outcome : Node → Outcome Value
  | .plain t => plainOutcome t
  | .literal t => .ok (.text t)
  | .list items => Outcome.deepen ((Outcome.all (itemOutcomes items)).map .list)
  | .mapping entries =>
    match entryOutcomes? entries with
    | none => Outcome.deepen (.ofFault .malformed)
    | some es => Outcome.deepen ((Outcome.all es.list).map (.mapping ∘ Value.collect))

/-- The outcomes of the items of a list. -/
def itemOutcomes : List Node → List (Outcome Value)
  | [] => []
  | n :: ns => n.outcome :: itemOutcomes ns

/-- The outcomes of the entries of a mapping. There are none if something else than mappings is to
    be merged (`mergeable?`). -/
def entryOutcomes? : List (Node × Node) → Option Entries
  | [] => some ⟨[], []⟩
  | (k, v) :: rest =>
    if isMerge k then do
      let merged ← v.mergeable?
      let es ← entryOutcomes? rest
      return { es with merged := merged ++ es.merged }
    else do
      let es ← entryOutcomes? rest
      return { es with own := (keyOutcome k).both v.outcome :: es.own }

/-- The entries that a node merges into a mapping: its own, or those of the mappings in a list, of
    which an earlier one counts more. -/
def Node.mergeable? : Node → Option (List (Outcome (Value × Value)))
  | .mapping entries => (entryOutcomes? entries).map Entries.list
  | .list items => itemsMergeable? items
  | _ => none

/-- The entries of the mappings in a list, the last first, for `Node.mergeable?`. -/
def itemsMergeable? : List Node → Option (List (Outcome (Value × Value)))
  | [] => some []
  | .mapping entries :: rest => do
    let es ← entryOutcomes? entries
    return (← itemsMergeable? rest) ++ es.list
  | _ => none

end

/-- The value of the node `n`. -/
def Node.value (n : Node) : Except Fault Value := n.outcome.mapError (·.2)

end Seashell.Yaml
