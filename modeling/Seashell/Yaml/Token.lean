import Seashell.Yaml.Lexeme

set_option autoImplicit false

/-! # Tokens of YAML

A document is split into tokens before its nodes are found. Besides the marks and scalars of the
text there are tokens that stand for what the text says by indentation alone: where a list or
mapping in block style begins and ends, and that what follows is a key.

Whether a token begins a key shows only at the colon after it. So the place of a possible key is
kept (`noteKey`), one for each level of brackets, and the tokens that announce the key are put in
front of it when the colon comes (`valueMark`). The colon has to come on the same line and within
1024 characters; otherwise the key is given up (`dropStale`).

`Lexer.step` splits one token off: it passes white space, ends what the column of the next token
ends (`unwind`), and leaves the rest to the action for the token (`Lexer.token`). `Lexer.run` goes
from step to step and gives all `tokens` of a document. -/

namespace Seashell.Yaml

open Text

/-- A token of a document. -/
inductive Token where
  /-- Three hyphens, which begin a document. -/
  | documentStart
  /-- Three dots, which end a document. -/
  | documentEnd
  /-- A list in block style begins. -/
  | blockList
  /-- A mapping in block style begins. -/
  | blockMapping
  /-- A list or mapping in block style ends. -/
  | blockEnd
  | listOpen
  | listClose
  | mappingOpen
  | mappingClose
  /-- A dash, which begins an item. -/
  | dash
  | comma
  /-- What follows is a key. -/
  | key
  /-- A colon; what follows is a value. -/
  | value
  /-- A scalar without quotes. -/
  | plain (t : Text)
  /-- A scalar in quotes or as a block. -/
  | literal (t : Text)
  /-- The text ends. -/
  | finish
  /-- The text cannot be split further. -/
  | broken (f : Fault)
deriving Repr, DecidableEq

/-- A token that begins a key if a colon follows, as `noteKey` keeps it. -/
structure PossibleKey where
  /-- The number of tokens before it. -/
  number : Nat
  index : Nat
  line : Nat
  column : Nat
  /-- Nothing but a key can stand here, since it stands where the keys of a mapping do. -/
  required : Bool
deriving Repr, DecidableEq

/-- The characters that may stand between the start of a `PossibleKey` and its colon. -/
def PossibleKey.reach : Nat := 1024

/-- A colon at the place `p` comes too late for the key. -/
def PossibleKey.isStale (k : PossibleKey) (p : Cursor) : Bool :=
  k.line != p.line || PossibleKey.reach < p.index - k.index

/-- A document that has been split up to a place. -/
structure Lexer where
  place : Cursor
  /-- The tokens before the place, the last first. -/
  tokens : List Token := []
  /-- The columns of the lists and mappings in block style around the place, the innermost first. -/
  indents : List Nat := []
  /-- The possible key at the place's own level of brackets. -/
  candidate : Option PossibleKey := none
  /-- The possible keys at the levels around it. -/
  outer : List (Option PossibleKey) := []
  /-- A key may begin at the place. -/
  mayBegin : Bool := true
deriving Repr

namespace Lexer

/-- The place is inside brackets. -/
def inFlow (s : Lexer) : Bool := !s.outer.isEmpty

/-- Adds the token `t`. -/
def emit (s : Lexer) (t : Token) : Lexer := { s with tokens := t :: s.tokens }

/-- Puts the token `t` in front of those from a `number` on. -/
def insert (s : Lexer) (number : Nat) (t : Token) : Lexer :=
  { s with tokens := s.tokens.insertIdx (s.tokens.length - number) t }

/-- Moves the place by `n` characters. -/
def move (s : Lexer) (n : Nat) : Lexer := { s with place := s.place.move n }

/-! ## Indentation -/

/-- The column before which the lines of a scalar may not begin, from the innermost of `indents`. -/
def least (s : Lexer) : Nat :=
  match s.indents with
  | [] => 0
  | column :: _ => column + 1

/-- Ends the lists and mappings in block style that stand to the right of `column`. Brackets hide
    indentation. -/
def unwind (s : Lexer) (column : Nat) : Lexer :=
  if s.inFlow then s
  else
    let ended := s.indents.takeWhile (column < ·)
    { s with
      indents := s.indents.drop ended.length
      tokens := ended.map (fun _ => .blockEnd) ++ s.tokens }

/-- Ends all lists and mappings in block style, as `unwind` would from before the first column. -/
def unwindAll (s : Lexer) : Lexer :=
  if s.inFlow then s
  else { s with indents := [], tokens := s.indents.map (fun _ => .blockEnd) ++ s.tokens }

/-- A list or mapping in block style that begins at `column` is inside those around it. -/
def isDeeper (s : Lexer) (column : Nat) : Bool := s.indents.head?.all (· < column)

/-- Begins a list or mapping in block style at a `column`, unless it is there already, by a token in
    front of those from a `number` on. -/
def indent (s : Lexer) (column number : Nat) (t : Token) : Lexer :=
  if !s.inFlow && s.isDeeper column then
    { s with indents := column :: s.indents }.insert number t
  else s

/-! ## Possible keys -/

/-- Gives up the `candidate` for a key at this level. -/
def dropKey (s : Lexer) : Except Fault Lexer :=
  if s.candidate.any (·.required) then .error .malformed else .ok { s with candidate := none }

/-- Gives up the possible keys that are stale (`PossibleKey.isStale`). -/
def dropStale (s : Lexer) : Except Fault Lexer :=
  let stale := ((s.candidate :: s.outer).filterMap id).filter (·.isStale s.place)
  if stale.any (·.required) then .error .malformed
  else
    let keep := fun k : Option PossibleKey => k.filter (!·.isStale s.place)
    .ok { s with candidate := keep s.candidate, outer := s.outer.map keep }

/-- Keeps the place as that of a `PossibleKey`, if one may begin here. -/
def noteKey (s : Lexer) : Except Fault Lexer :=
  if s.mayBegin then do
    let s ← s.dropKey
    let p := s.place
    let required := !s.inFlow && s.indents.head? == some p.column
    return { s with candidate := some ⟨s.tokens.length, p.index, p.line, p.column, required⟩ }
  else return s

/-! ## Tokens -/

/-- Passes blanks, comments and line breaks. Outside of brackets a key may begin on a new line. -/
def skipWhite (s : Lexer) : Lexer :=
  let p := s.place.skipWhite
  { s with place := p, mayBegin := s.mayBegin || (!s.inFlow && p.line != s.place.line) }

/-- The end of the text. -/
def finish (s : Lexer) : Except Fault Lexer := do
  let s ← s.unwindAll.dropKey
  return s.emit .finish

/-- A mark `t` that begins or ends a document. -/
def documentMark (s : Lexer) (t : Token) : Except Fault Lexer := do
  let s ← s.unwindAll.dropKey
  return { s with mayBegin := false }.emit t |>.move 3

/-- A bracket that opens; what is inside may be a key. -/
def openBracket (s : Lexer) (t : Token) : Except Fault Lexer := do
  let s ← s.noteKey
  let inside := { s with candidate := none, outer := s.candidate :: s.outer, mayBegin := true }
  return inside.emit t |>.move 1

/-- A bracket that closes. -/
def closeBracket (s : Lexer) (t : Token) : Except Fault Lexer := do
  let s ← s.dropKey
  match s.outer with
  | [] => .error .malformed
  | k :: outer => return { s with candidate := k, outer, mayBegin := false }.emit t |>.move 1

/-- A comma, after which a key may begin. -/
def comma (s : Lexer) : Except Fault Lexer := do
  let s ← s.dropKey
  return { s with mayBegin := true }.emit .comma |>.move 1

/-- A dash. Outside of brackets it begins a list, if there is none at its column. -/
def dash (s : Lexer) : Except Fault Lexer :=
  if !s.inFlow && !s.mayBegin then .error .malformed
  else do
    let s ← (s.indent s.place.column s.tokens.length .blockList).dropKey
    return { s with mayBegin := true }.emit .dash |>.move 1

/-- A question mark, which announces a key. Outside of brackets it begins a mapping, if there is
    none at its column. -/
def keyMark (s : Lexer) : Except Fault Lexer :=
  if !s.inFlow && !s.mayBegin then .error .malformed
  else do
    let s ← (s.indent s.place.column s.tokens.length .blockMapping).dropKey
    return { s with mayBegin := !s.inFlow }.emit .key |>.move 1

/-- A colon. It makes a key of the `candidate`, which begins a mapping if there is none at its
    column. -/
def valueMark (s : Lexer) : Except Fault Lexer :=
  match s.candidate with
  | some k =>
    let s := { s with candidate := none, mayBegin := false }
    return ((s.insert k.number .key).indent k.column k.number .blockMapping).emit .value |>.move 1
  | none =>
    if !s.inFlow && !s.mayBegin then .error .malformed
    else
      let s := s.indent s.place.column s.tokens.length .blockMapping
      return { s with mayBegin := !s.inFlow }.emit .value |>.move 1

/-- A scalar as a block of lines (`blockScalar?`), after which a key may begin. -/
def block (s : Lexer) (folded : Bool) : Except Fault Lexer := do
  let s ← s.dropKey
  match blockScalar? folded s.least s.place.next with
  | none => .error .malformed
  | some l => return { s with place := l.next, mayBegin := true }.emit (.literal l.text)

/-- A scalar in quotes (`doubleFrom`, `singleFrom`), which may be a key. -/
def quoted (s : Lexer) (double : Bool) : Except Fault Lexer := do
  let s ← s.noteKey
  let fuel := s.place.rest.length
  let l ← if double then doubleFrom fuel s.place.next else singleFrom fuel s.place.next
  return { s with place := l.next, mayBegin := false }.emit (.literal l.text)

/-- A scalar without quotes (`plainFrom`), which may be a key. If it ends with its line another may
    begin. -/
def plain (s : Lexer) : Except Fault Lexer := do
  let s ← s.noteKey
  let (l, broken) := plainFrom s.inFlow s.least s.place.rest.length s.place
  return { s with place := l.next, mayBegin := broken }.emit (.plain l.text)

/-- The token at the place, which begins with `c` before `rest`. -/
def token (s : Lexer) (c : Char) (rest : Text) : Except Fault Lexer :=
  if s.place.atStart then s.documentMark .documentStart
  else if s.place.atStop then s.documentMark .documentEnd
  else if c == '[' then s.openBracket .listOpen
  else if c == '{' then s.openBracket .mappingOpen
  else if c == ']' then s.closeBracket .listClose
  else if c == '}' then s.closeBracket .mappingClose
  else if c == ',' then s.comma
  else if c == '-' && atWhite rest then s.dash
  else if c == '?' && (s.inFlow || atWhite rest) then s.keyMark
  else if c == ':' && (s.inFlow || atWhite rest) then s.valueMark
  else if c == '|' && !s.inFlow then s.block false
  else if c == '>' && !s.inFlow then s.block true
  else if c == '\'' then s.quoted false
  else if c == '"' then s.quoted true
  else if startsPlain s.inFlow c rest then s.plain
  else .error .malformed

/-- Splits off one `token` more, and those that its indentation asks for. -/
def step (s : Lexer) : Except Fault Lexer := do
  let s ← s.skipWhite.dropStale
  let s := s.unwind s.place.column
  match s.place.rest with
  | [] => s.finish
  | c :: rest => s.token c rest

/-- The tokens that no later character can change: those before all possible keys. -/
def settled (s : Lexer) : List Token :=
  let pending := ((s.candidate :: s.outer).filterMap id).filter (!·.isStale s.place)
  let count := pending.foldl (fun n k => min n k.number) s.tokens.length
  s.tokens.reverse.take count

/-- The tokens of a document, of which some have been split off, `step` by `step`. The fuel bounds
    the number of steps. -/
def run : Nat → Lexer → List Token
  | 0, s => s.settled
  | fuel + 1, s =>
    match s.step with
    | .error f => s.settled ++ [.broken f]
    | .ok next => if next.tokens.head? = some .finish then next.tokens.reverse else run fuel next

end Lexer

/-- The tokens of the document `s`. The last is the end of the text, or says why the text cannot be
    split. -/
def tokens (s : Text) : List Token := Lexer.run (s.length + 1) { place := .ofText s }

end Seashell.Yaml
