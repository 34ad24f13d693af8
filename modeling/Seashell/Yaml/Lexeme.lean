import Seashell.Text.Decimal
import Seashell.Yaml.Cursor
import Seashell.Yaml.Fault

set_option autoImplicit false

/-! # Scalars as written in YAML

The four ways to write a scalar: without quotes (`plainFrom`), in single or double quotes
(`singleFrom`, `doubleFrom`), and as a block of indented lines (`blockScalar?`). What is read is a
`Lexeme`, its text and the place after it.

A scalar may span several lines; a single line break inside it counts as a blank, and of several the
first one vanishes (`foldedBreak`). Without quotes and in quotes this is said of the gap between two
words (`plainGap`, `quotedGap`), in a block of a line that follows another one. In double quotes a
character may be escaped (`escaped`). The recursions go from word to word or from line to line and
are bounded by fuel, for which the length of the text is enough. -/

namespace Seashell.Yaml

open Text

/-- A scalar as it was read. -/
structure Lexeme where
  text : Text
  /-- The place after the scalar. -/
  next : Cursor

/-- The text of a line break `c` in a scalar, given the breaks of the empty lines that follow it. -/
def foldedBreak (c : Char) (more : Text) : Text :=
  if c ≠ '\n' then c :: more else if more.isEmpty then [' '] else more

/-- Puts the text `t` in front of a scalar. -/
def Lexeme.prepend (t : Text) (l : Lexeme) : Lexeme := { l with text := t ++ l.text }

/-! ## Without quotes -/

/-- The characters with a meaning in lists and mappings in brackets. -/
def isFlowMark (c : Char) : Bool := (",[]\x7b\x7d".toList).contains c

/-- A word ends before `c`, which `rest` follows. -/
def endsWord (flow : Bool) (c : Char) (rest : Text) : Bool :=
  isWhite c || (c == ':' && (atWhite rest || (flow && rest.head?.any isFlowMark)))
    || (flow && (isFlowMark c || c == '?'))

/-- The word of a scalar without quotes at the start of a text, up to where `endsWord` says. -/
def plainWord (flow : Bool) : Text → Text
  | [] => []
  | c :: cs => if endsWord flow c cs then [] else c :: plainWord flow cs

/-- A scalar without quotes can begin with `c`, which `rest` follows. -/
def startsPlain (flow : Bool) (c : Char) (rest : Text) : Bool :=
  !(isWhite c || ("-?:,[]\x7b\x7d#&*!|>'\"%@`".toList).contains c)
    || (!atWhite rest && (c == '-' || (!flow && (c == '?' || c == ':'))))

/-- What stands between two words at the place `p`: blanks, or a line break with the blank lines
    after it and the indentation of the next. Returns the text that it stands for. -/
def plainGap (p : Cursor) : Text × Cursor :=
  let (blanks, p) := p.span (· == ' ')
  match p.rest with
  | [] => (blanks, p)
  | c :: _ =>
    if isBreak c then
      let (lead, p) := p.next.span fun d => d == ' ' || isBreak d
      (foldedBreak c (lead.filter isBreak), p)
    else (blanks, p)

/-- A scalar without quotes ends at the place `p` after one of its words. A line that begins before
    the column `least` does not belong to it, except in brackets. -/
def endsPlain (flow : Bool) (least : Nat) (p : Cursor) : Bool :=
  p.rest.head? == some '#' || p.atMarker || (!flow && p.column < least)
    || (plainWord flow p.rest).isEmpty

/-- A scalar without quotes, word by word (`plainWord`, `plainGap`). Also says whether a line break
    follows its last word. The fuel bounds the number of words. -/
def plainFrom (flow : Bool) (least : Nat) : Nat → Cursor → Lexeme × Bool
  | 0, p => (⟨[], p⟩, false)
  | fuel + 1, p =>
    let word := plainWord flow p.rest
    let (gap, next) := plainGap (p.move word.length)
    if gap.isEmpty || endsPlain flow least next then (⟨word, next⟩, next.line != p.line)
    else
      let (more, broken) := plainFrom flow least fuel next
      (more.prepend (word ++ gap), broken)

/-! ## In quotes -/

/-- Passes white space after a line break. Returns the further breaks; a mark that begins or ends a
    document (`atMarker`) has no place in quotes. -/
def quotedBreaks (p : Cursor) : Except Fault (Text × Cursor) :=
  let (lead, p) := p.span isWhite
  if p.atMarker then .error .malformed else .ok (lead.filter isBreak, p)

/-- What stands between two words in quotes at the place `p`: white space, or a line break with what
    follows it. Returns the text that it stands for. -/
def quotedGap (p : Cursor) : Except Fault (Text × Cursor) :=
  let (spaces, p) := p.span isSpace
  match p.rest with
  | [] => .error .malformed
  | c :: _ =>
    if isBreak c then do
      let (more, p) ← quotedBreaks p.next
      return (foldedBreak c more, p)
    else return (spaces, p)

/-- The escapes of one letter, with the characters that they stand for. -/
def escapeLetters : List (Char × Char) :=
  [('0', '\x00'), ('a', '\x07'), ('b', '\x08'), ('t', '\t'), ('\t', '\t'), ('n', '\n'),
    ('v', '\x0b'), ('f', '\x0c'), ('r', '\r'), ('e', '\x1b'), (' ', ' '), ('"', '"'), ('\\', '\\'),
    ('/', '/'), ('N', '\u0085'), ('_', '\u00a0'), ('L', '\u2028'), ('P', '\u2029')]

/-- The escapes by `codePoint`, with the number of their digits. -/
def escapeWidths : List (Char × Nat) := [('x', 2), ('u', 4), ('U', 8)]

/-- The character of a code point in hexadecimal. Numbers beyond the code points are no characters,
    and numbers beyond 31 bits are not even taken for code points. -/
def codePoint (digits : Text) (width : Nat) : Except Fault Char :=
  match if digits.length = width then toNat? 16 digits else none with
  | none => .error .malformed
  | some n =>
    if 0x7FFFFFFF < n then .error .tooLarge
    else if 0x10FFFF < n then .error .impossible
    else if n < 0xD800 ∨ 0xE000 ≤ n then .ok (Char.ofNat n)
    else .error .malformed

/-- An escape after its backslash, by `escapeLetters` or `escapeWidths`: the text that it stands for
    and the place after it. A line break is escaped together with the white space after it. -/
def escaped (p : Cursor) : Except Fault (Text × Cursor) :=
  match p.rest with
  | [] => .error .malformed
  | letter :: cs =>
    match escapeLetters.lookup letter, escapeWidths.lookup letter with
    | some d, _ => .ok ([d], p.next)
    | none, some width => do
      let d ← codePoint (cs.take width) width
      return ([d], p.move (width + 1))
    | none, none => if isBreak letter then quotedBreaks p.next else .error .malformed

/-- The rest of a scalar in double quotes, with `quotedGap` and `escaped`. The fuel bounds the
    number of characters. -/
def doubleFrom : Nat → Cursor → Except Fault Lexeme
  | 0, _ => .error .malformed
  | fuel + 1, p =>
    match p.rest with
    | [] => .error .malformed
    | '"' :: _ => .ok ⟨[], p.next⟩
    | '\\' :: _ => do
      let (t, p) ← escaped p.next
      return (← doubleFrom fuel p).prepend t
    | c :: _ =>
      if isWhite c then do
        let (gap, p) ← quotedGap p
        return (← doubleFrom fuel p).prepend gap
      else return (← doubleFrom fuel p.next).prepend [c]

/-- The rest of a scalar in single quotes, in which a quote is written twice. The fuel bounds the
    number of characters, as in `doubleFrom`. -/
def singleFrom : Nat → Cursor → Except Fault Lexeme
  | 0, _ => .error .malformed
  | fuel + 1, p =>
    match p.rest with
    | [] => .error .malformed
    | '\'' :: '\'' :: _ => return (← singleFrom fuel (p.move 2)).prepend ['\'']
    | '\'' :: _ => .ok ⟨[], p.next⟩
    | c :: _ =>
      if isWhite c then do
        let (gap, p) ← quotedGap p
        return (← singleFrom fuel p).prepend gap
      else return (← singleFrom fuel p.next).prepend [c]

/-! ## As blocks of lines -/

/-- What becomes of the line breaks at the end of a block. -/
inductive Chomp where
  | strip
  | clip
  | keep
deriving Repr, DecidableEq

/-- The `Chomp` that a character asks for. -/
def chomp? : Char → Option Chomp
  | '-' => some .strip
  | '+' => some .keep
  | _ => none

/-- The indentation that a digit asks for. -/
def increment? (c : Char) : Option Nat :=
  if '1' ≤ c ∧ c ≤ '9' then some (c.toNat - '0'.toNat) else none

/-- The chomping (`chomp?`) and the indentation (`increment?`) that the head of a block asks for, in
    either order, and the number of characters that ask for them. -/
def blockMarks (s : Text) : Chomp × Option Nat × Nat :=
  match s with
  | [] => (.clip, none, 0)
  | a :: rest =>
    match chomp? a, increment? a with
    | some k, _ =>
      match rest.head?.bind increment? with
      | some n => (k, some n, 2)
      | none => (k, none, 1)
    | none, some n =>
      match rest.head?.bind chomp? with
      | some k => (k, some n, 2)
      | none => (.clip, some n, 1)
    | none, none => (.clip, none, 0)

/-- The head of a block after its mark, which a comment may end. Returns what `blockMarks` has found
    and the place of the first line. -/
def blockHead? (p : Cursor) : Option (Chomp × Option Nat × Cursor) :=
  let (chomp, increment, n) := blockMarks p.rest
  let p := p.move n
  if p.rest.head?.all (fun c => c == ' ' || isBreak c) && atLineEnd p.skipComment.rest then
    some (chomp, increment, p.skipComment.next)
  else none

/-- The widest of the lines of blanks in a text, the first of which begins at a column. -/
def widest : Nat → Text → Nat
  | column, [] => column
  | column, c :: cs => if isBreak c then max column (widest 0 cs) else widest (column + 1) cs

/-- The indentation of a line and of the empty lines before it, up to the column `indent`: their
    breaks, and the number of their characters. -/
def blockLead (indent : Nat) : Nat → Text → Text × Nat
  | _, [] => ([], 0)
  | column, c :: cs =>
    if c = ' ' ∧ column < indent then
      let (breaks, n) := blockLead indent (column + 1) cs
      (breaks, n + 1)
    else if isBreak c then
      let (breaks, n) := blockLead indent 0 cs
      (c :: breaks, n + 1)
    else ([], 0)

/-- Passes empty lines and the indentation of the line after them, by `blockLead`. Returns the
    breaks. -/
def blockBreaks (indent : Nat) (p : Cursor) : Text × Cursor :=
  let (breaks, n) := blockLead indent p.column p.rest
  (breaks, p.move n)

/-- A line of a block that is indented to the column `indent` begins here. -/
def atBlockLine (indent : Nat) (p : Cursor) : Bool := p.column == indent && !p.rest.isEmpty

/-- The lines of a block, of which `breaks` stand before the first. Returns their text, the break
    after the last, the empty lines after it and the place after them. The fuel bounds the number of
    lines. -/
def blockLines (folded : Bool) (indent : Nat) : Nat → Text → Cursor → Text × Text × Text × Cursor
  | 0, breaks, p => ([], [], breaks, p)
  | fuel + 1, breaks, p =>
    if atBlockLine indent p then
      let (line, p) := p.span (!isBreak ·)
      let lineEnd := p.rest.take 1
      let (empty, p) := blockBreaks indent p.next
      if atBlockLine indent p then
        let joined := folded && lineEnd == ['\n'] && !(line.head?.any isSpace)
          && !(p.rest.head?.any isSpace)
        let sep := if joined then (if empty.isEmpty then [' '] else []) else lineEnd
        let (more, tail) := blockLines folded indent fuel empty p
        (breaks ++ line ++ sep ++ more, tail)
      else (breaks ++ line, lineEnd, empty, p)
    else ([], [], breaks, p)

/-- A scalar as a block of lines, after its mark. Its lines are indented to the column `least` at
    least. -/
def blockScalar? (folded : Bool) (least : Nat) (p : Cursor) : Option Lexeme := do
  let (chomp, increment, p) ← blockHead? p
  let least := max 1 least
  let indent := match increment with
    | some n => least + n - 1
    | none => max least (widest 0 (p.rest.takeWhile fun c => c == ' ' || isBreak c))
  let (breaks, first) := match increment with
    | some _ => blockBreaks indent p
    | none =>
      let (lead, first) := p.span fun c => c == ' ' || isBreak c
      (lead.filter isBreak, first)
  let (text, lineEnd, empty, next) := blockLines folded indent (p.rest.length + 1) breaks first
  let tail := match chomp with
    | .strip => []
    | .clip => lineEnd
    | .keep => lineEnd ++ empty
  return ⟨text ++ tail, next⟩

end Seashell.Yaml
