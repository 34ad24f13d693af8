import Seashell.Text.Scan

set_option autoImplicit false

/-! # Places in a YAML document

Indentation carries structure in YAML, so a reader has to know the column it is at, and whether two
places are on one line. A `Cursor` is the rest of a document with what has been passed before it,
counted in characters, lines and columns. `Cursor.next` passes one character and keeps the counts,
and everything else that moves a cursor does so by it (`Cursor.move`, `Cursor.span`,
`Cursor.skipWhite`).

Before a document is read its line breaks are made line feeds (`normalizeBreaks`), but for the two
separators of Unicode, which are kept in texts. -/

namespace Seashell.Yaml

open Text

/-! ## Characters -/

/-- A character that ends a line. -/
def isBreak (c : Char) : Bool := c == '\n' || c == '\u2028' || c == '\u2029'

/-- A blank or a tab. -/
def isSpace (c : Char) : Bool := c == ' ' || c == '\t'

/-- A blank, a tab or a line break: `isSpace` or `isBreak`. -/
def isWhite (c : Char) : Bool := isSpace c || isBreak c

/-- The text `s` is at its end or begins with white space (`isWhite`). -/
def atWhite (s : Text) : Bool := s.head?.all isWhite

/-- The text `s` is at the end of a line. -/
def atLineEnd (s : Text) : Bool := s.head?.all isBreak

/-- All line breaks but the two Unicode separators as line feeds. -/
def normalizeBreaks : Text → Text
  | [] => []
  | '\r' :: '\n' :: s => '\n' :: normalizeBreaks s
  | c :: s => (if c = '\r' ∨ c = '\u0085' then '\n' else c) :: normalizeBreaks s

/-- A document may hold the character `c` as it is. -/
def isAllowed (c : Char) : Bool :=
  let n := c.toNat
  n == 0x09 || n == 0x0A || n == 0x0D || (0x20 ≤ n && n ≤ 0x7E) || n == 0x85
    || (0xA0 ≤ n && n ≤ 0xD7FF) || (0xE000 ≤ n && n ≤ 0xFFFD) || 0x10000 ≤ n

/-- The text `s` begins with the three characters `mark`, which begin or end a document. -/
def isMarker (mark s : Text) : Bool := ((after? mark s).map atWhite).getD false

/-! ## Cursors -/

/-- A place in a document. -/
structure Cursor where
  rest : Text
  /-- The number of characters before this place. -/
  index : Nat
  /-- The number of line breaks before this place. -/
  line : Nat
  /-- The number of characters between the start of the line and this place. A byte order mark does
      not count. -/
  column : Nat
deriving Repr, DecidableEq

namespace Cursor

/-- The place before the text `s`. -/
def ofText (s : Text) : Cursor := ⟨s, 0, 0, 0⟩

/-- The place after the next character: a line break begins a new line. -/
def next (p : Cursor) : Cursor :=
  match p.rest with
  | [] => p
  | c :: rest =>
    if isBreak c then ⟨rest, p.index + 1, p.line + 1, 0⟩
    else ⟨rest, p.index + 1, p.line, if c = '\ufeff' then p.column else p.column + 1⟩

/-- The place after the next `n` characters, `next` by `next`. -/
def move (p : Cursor) : Nat → Cursor
  | 0 => p
  | n + 1 => p.next.move n

/-- The characters from here on that pass `test`, and the place after them. -/
def span (p : Cursor) (test : Char → Bool) : Text × Cursor :=
  let t := p.rest.takeWhile test
  (t, p.move t.length)

/-- The place after blanks. -/
def skipBlanks (p : Cursor) : Cursor := (p.span (· == ' ')).2

/-- The number of characters of blanks, comments and line breaks at the start of a text. `comment`
    says that the text begins inside a comment. -/
def whiteLength : Bool → Text → Nat
  | _, [] => 0
  | comment, c :: cs =>
    if isBreak c then whiteLength false cs + 1
    else if comment || c == '#' then whiteLength true cs + 1
    else if c == ' ' then whiteLength false cs + 1
    else 0

/-- The place after blanks, comments and line breaks, by `whiteLength`. -/
def skipWhite (p : Cursor) : Cursor := p.move (whiteLength false p.rest)

/-- The place after blanks and a comment on the same line. -/
def skipComment (p : Cursor) : Cursor :=
  let p := p.skipBlanks
  if p.rest.head? = some '#' then (p.span (!isBreak ·)).2 else p

/-- A document begins here. -/
def atStart (p : Cursor) : Bool := p.column = 0 && isMarker "---" p.rest

/-- A document ends here by a mark of its own. -/
def atStop (p : Cursor) : Bool := p.column = 0 && isMarker "..." p.rest

/-- A document begins or ends here: `atStart` or `atStop`. -/
def atMarker (p : Cursor) : Bool := p.atStart || p.atStop

end Cursor
end Seashell.Yaml
