import Seashell.Yaml.Scalar

set_option autoImplicit false

/-! # Writing YAML

Documents are written in block style, the entries of a mapping below each other (`blockEntries`) and
so the items of a list, with a dash in front (`blockItems`). `Yaml.render` is a whole document.

A text is written plainly if it can be, else in single quotes, else in double quotes with escapes:
`styleOf` decides by what a reader would make of it. Long texts are folded, where a line that has
grown beyond `bestWidth` columns ends at the next chance. Without quotes and in single quotes that
is a blank between two words (`fold`); in double quotes a line may also end elsewhere, and a
backslash says so (`foldEscaped`). -/

namespace Seashell.Yaml

open Text

/-- The column beyond which a line has grown too long. -/
def bestWidth : Nat := 80

/-- Blanks. -/
def spaces (n : Nat) : Text := List.replicate n ' '

/-- A new line with an indentation of `indent` blanks. -/
def newLine (indent : Nat) : Text := '\n' :: spaces indent

/-! ## Styles -/

/-- How a text is written, as `styleOf` finds it. -/
inductive Style where
  | plain
  | single
  | double
deriving Repr, DecidableEq

/-- A character that only double quotes can show: neither a line feed nor printable ASCII. -/
def isSpecial (c : Char) : Bool := c != '\n' && !(0x20 ≤ c.toNat && c.toNat ≤ 0x7E)

/-- Something that ends a token: a blank, a line feed, or the end. -/
def endsToken : Text → Bool
  | [] => true
  | c :: _ => c == ' ' || c == '\n'

/-- A colon at the end of a token (`endsToken`) or a number sign at the start of one, after the
    first character. -/
def hasIndicator : Text → Bool
  | a :: b :: rest =>
    (b == ':' && endsToken rest) || (b == '#' && (a == ' ' || a == '\n')) || hasIndicator (b :: rest)
  | _ => false

/-- The characters that cannot begin a plain text. -/
def leadingIndicators : Text := "#,[]\x7b\x7d&*!|>'\"%@`"

/-- The beginning of `s` would be taken for markup, by `leadingIndicators` or because a mark stands
    alone. -/
def startsIndicator (s : Text) : Bool :=
  s.startsWith "---" || s.startsWith "..." || (match s with
    | c :: rest =>
      leadingIndicators.contains c || ((c == '?' || c == ':' || c == '-') && endsToken rest)
    | [] => true)

/-- A blank or a line feed. -/
def isSpaceOrBreak (c : Char) : Bool := c == ' ' || c == '\n'

/-- The text `s` begins or ends with a blank or a line feed. -/
def hasOuterSpace (s : Text) : Bool :=
  s.head?.any isSpaceOrBreak || s.getLast?.any isSpaceOrBreak

/-- The style of the text `s`. -/
def styleOf (s : Text) : Style :=
  if s.any isSpecial || hasPart " \n" s || hasPart "\n " s then .double
  else if s.contains '\n' || hasOuterSpace s || startsIndicator s || hasIndicator s
      || kind s != .text then .single
  else .plain

/-! ## Folding -/

/-- What stands before a character inside a folded text. -/
inductive Before where
  | start
  | space
  | lineFeed
  | other
deriving Repr, DecidableEq

/-- Writes a text from a `column` on. A single blank inside the text ends the line if the line has
    grown too long, and a run of line feeds is written with one more. -/
def fold (indent : Nat) (emit : Char → Text) : Nat → Before → Text → Text
  | _, _, [] => []
  | column, before, c :: cs =>
    if c = ' ' then
      if before = .other ∧ cs ≠ [] ∧ cs.head? ≠ some ' ' ∧ bestWidth < column then
        newLine indent ++ fold indent emit indent .space cs
      else ' ' :: fold indent emit (column + 1) .space cs
    else if c = '\n' then
      (if before = .lineFeed then ['\n'] else ['\n', '\n'])
        ++ (if cs.head? = some '\n' then [] else spaces indent)
        ++ fold indent emit indent .lineFeed cs
    else emit c ++ fold indent emit (column + (emit c).length) .other cs

/-- The short escapes of double quotes. -/
def shortEscapes : List (Char × Char) :=
  [('\x00', '0'), ('\x07', 'a'), ('\x08', 'b'), ('\t', 't'), ('\n', 'n'), ('\x0b', 'v'),
    ('\x0c', 'f'), ('\r', 'r'), ('\x1b', 'e'), ('"', '"'), ('\\', '\\'), ('\u0085', 'N'),
    ('\u00a0', '_'), ('\u2028', 'L'), ('\u2029', 'P')]

/-- The number `n` in upper-case hexadecimal, filled up with zeros. -/
def hexUpper (width n : Nat) : Text :=
  let digits := (Nat.toDigits 16 n).map Char.toUpper
  List.replicate (width - digits.length) '0' ++ digits

/-- The escape of `c` in double quotes, by `shortEscapes` or by its code point. -/
def escape (c : Char) : Text :=
  match shortEscapes.lookup c with
  | some letter => ['\\', letter]
  | none =>
    if c.toNat ≤ 0xFF then "\\x" ++ hexUpper 2 c.toNat
    else if c.toNat ≤ 0xFFFF then "\\u" ++ hexUpper 4 c.toNat
    else "\\U" ++ hexUpper 8 c.toNat

/-- The character `c` is escaped in double quotes. -/
def isEscaped (c : Char) : Bool := c == '"' || c == '\\' || !(0x20 ≤ c.toNat && c.toNat ≤ 0x7E)

/-- Writes a text in double quotes from a `column` on. A line that has grown too long ends before a
    blank, after an escape, or before the first character after either; a backslash marks the end,
    and another one a blank that begins the next line. `first` says that nothing of the text has
    been written, `cut` that the line may end before any character. -/
def foldEscaped (indent : Nat) : Nat → Bool → Bool → Text → Text
  | _, _, _, [] => []
  | column, first, cut, c :: cs =>
    let inner := !first && !cs.isEmpty
    if isEscaped c then
      let e := escape c
      if inner && bestWidth + 1 < column + e.length then
        let mark := if cs.head? = some ' ' then "\\".toList else []
        e ++ "\\" ++ newLine indent ++ mark
          ++ foldEscaped indent (indent + mark.length) false true cs
      else e ++ foldEscaped indent (column + e.length) false true cs
    else if (c == ' ' || cut) && inner && decide (bestWidth < column) then
      let mark := if c = ' ' then "\\".toList else []
      "\\" ++ newLine indent ++ mark ++ [c]
        ++ foldEscaped indent (indent + mark.length + 1) false false cs
    else c :: foldEscaped indent (column + 1) false false cs

/-- The text `s` from `column` on, in its style, with the indentation of further lines. -/
def textScalar (indent column : Nat) (s : Text) : Text :=
  match styleOf s with
  | .plain => fold indent (fun c => [c]) column .start s
  | .single =>
    "'" ++ fold indent (fun c => if c = '\'' then ['\'', '\''] else [c]) (column + 1) .start s ++ "'"
  | .double => "\"" ++ foldEscaped indent (column + 1) true true s ++ "\""

/-! ## Documents -/

/-- A scalar from `column` on; none of a list or mapping that has entries. -/
def scalar? (indent column : Nat) : Value → Option Text
  | .null => some "null"
  | .bool b => some (if b then "true" else "false")
  | .int n => some (Text.ofInt n)
  | .float x => some (Decimal.ofFloat x)
  | .text t => some (textScalar indent column t)
  | .date _ => some "null"
  | .moment _ => some "null"
  | .list [] => some "[]"
  | .mapping [] => some "\x7b\x7d"
  | _ => none

mutual

/-- The entries of a mapping whose keys stand at the column `indent`; the first key is already
    indented. -/
def blockEntries (indent : Nat) : List (Value × Value) → List Text
  | [] => []
  | (k, v) :: rest =>
    let key := (scalar? indent indent k).getD []
    (key ++ ":" ++ entryValue indent (indent + key.length + 1) v) :: blockEntries indent rest

/-- The value of an entry, after the colon, which ends at `column`. -/
def entryValue (indent column : Nat) : Value → Text
  | .list (v :: vs) => newLine indent ++ Text.join (newLine indent) (blockItems indent (v :: vs))
  | .mapping (e :: es) =>
    newLine (indent + 2) ++ Text.join (newLine (indent + 2)) (blockEntries (indent + 2) (e :: es))
  | v => " " ++ (scalar? (indent + 2) (column + 1) v).getD []

/-- The items of a list whose dashes stand at the column `indent`; the first dash is already
    indented. -/
def blockItems (indent : Nat) : List Value → List Text
  | [] => []
  | v :: vs => ("- " ++ itemValue (indent + 2) v) :: blockItems indent vs

/-- An item of a list, after the dash, at the column `indent`. -/
def itemValue (indent : Nat) : Value → Text
  | .list (v :: vs) => Text.join (newLine indent) (blockItems indent (v :: vs))
  | .mapping (e :: es) => Text.join (newLine indent) (blockEntries indent (e :: es))
  | v => (scalar? indent indent v).getD []

end

/-- The document `v`: a list or a mapping in block style, or a scalar. -/
def render (v : Value) : Text := itemValue 0 v ++ "\n"

end Seashell.Yaml
