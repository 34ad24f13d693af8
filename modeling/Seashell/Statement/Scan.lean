import Seashell.Statement.Basic
import Seashell.Text.WordClass

set_option autoImplicit false

/-! # Recognising statements

One scanner for each kind of statement. A scanner reads from the start of a line and looks no
further than it has to: most statements leave what follows them out of account. It gives the
`Statement` that it has found, or `none`.

The scanners are put together from a few parts: `after?` for a keyword, `gap?` for blanks that have
to be there, `afterMark?` for a character behind blanks, `run?` for a word. Where a part may hold
anything, what follows it says where it ends: `shortest?` and `part?` take as little as they can,
`longest?` as much. A condition between parentheses is closed by `closesThen` or `closesLine`. -/

namespace Seashell.Statement

open Text

/-! ## Parts of a statement -/

/-- The shortest non-empty beginning, within one line, after which `tail` accepts the rest. -/
def shortest? (tail : Text → Bool) : Text → Option Text
  | [] => none
  | c :: cs =>
    if c = '\n' then none
    else if tail cs then some [c]
    else (shortest? tail cs).map (c :: ·)

/-- The longest beginning, within one line, that ends in no blank and after which `tail` accepts the
    rest. -/
def longest? (tail : Text → Bool) : Text → Option Text
  | [] => none
  | c :: cs =>
    if c = '\n' then none
    else match longest? tail cs with
      | some more => some (c :: more)
      | none => if !isBlank c && tail cs then some [c] else none

/-- The last of some blanks that does not end a line. -/
def lastSpace? (s : Text) : Option Text := ((s.filter (· != '\n')).getLast?).map ([·])

/-- A part that stands between blanks and what `tail` accepts. If there is nothing else, the last of
    the blanks before it is the part. -/
def part? (tail : Text → Bool) (before s : Text) : Option Text :=
  (shortest? tail s).or (if tail s then lastSpace? before else none)

/-- Blanks, a closing parenthesis. -/
def closes (s : Text) : Bool := (trimStart s).head? == some ')'

/-- What follows blanks and the character `c`. -/
def afterMark? (c : Char) (s : Text) : Option Text :=
  match trimStart s with
  | d :: rest => if d = c then some rest else none
  | [] => none

/-- Blanks, a closing parenthesis, blanks, and the word `then`. -/
def closesThen (s : Text) : Bool :=
  match (afterMark? ')' s).bind fun rest => after? "then" (trimStart rest) with
  | some rest => wordEnds rest
  | none => false

/-- Blanks, the character `c`, and nothing else but blanks. -/
def closesLine (c : Char) (s : Text) : Bool :=
  match afterMark? c s with
  | some rest => allBlank rest
  | none => false

/-- A keyword alone on its line. -/
def bareKeyword? (keyword : Text) (statement : Statement) (s : Text) : Option Statement :=
  match after? keyword s with
  | some rest => if allBlank rest then some statement else none
  | none => none

/-- A run of characters of a class, without a dollar sign before it. A dollar sign alone is a
    run. -/
def variableRun? (p : Char → Bool) : Text → Option (Text × Text)
  | '$' :: s => (run? p s).or (run? p ('$' :: s))
  | s => run? p s

/-! ## Comparisons of `if` -/

/-- A character of the variable in an equality. -/
def isVariableChar (c : Char) : Bool := !isBlank c && !("=!()\"".toList).contains c

/-- A character of a value without quotes in an equality. -/
def isValueChar (c : Char) : Bool := !isBlank c && c != '(' && c != ')'

/-- `==` or `!=`; the latter is a negated equality. -/
def equalitySign? : Text → Option (Bool × Text)
  | '=' :: '=' :: s => some (false, s)
  | '!' :: '=' :: s => some (true, s)
  | _ => none

/-- The value of an equality that closes the condition of an `if`. -/
def closingValue? (s : Text) : Option Text :=
  let closing (read : Option (Text × Text)) : Option Text :=
    (read.filter fun (_, rest) => closesThen rest).map (·.1)
  (closing (quoted? '"' s)).or
    ((closing (Condition.substitution? s)).or (closing (run? isValueChar s)))

/-- The parenthesised equality of an `if`, followed by `then`. -/
def equalityThen? (s : Text) : Option Equality := do
  let s ← afterMark? '(' s
  let (name, s) ← variableRun? isVariableChar (trimStart s)
  let (negated, s) ← equalitySign? (trimStart s)
  let value ← closingValue? (trimStart s)
  return ⟨name, negated, value⟩

/-! ## One scanner for each kind of statement -/

/-- `#!...`. -/
def interpreter? (s : Text) : Option Statement :=
  if s.startsWith "#!" then some .interpreter else none

/-- The start `: <<'END'` or the end `END` of a commented-out block. -/
def commentFence? (s : Text) : Option Statement :=
  if s.startsWith ": <<'END'" || s = "END".toList || s = "END\n".toList then some .verbatim
  else none

/-- `setenv NAME VALUE`. -/
def setenv? (s : Text) : Option Statement := do
  let s ← (after? "setenv" s).bind gap?
  let (name, s) ← run? (!isBlank ·) s
  let s ← gap? s
  let (value, _) ← run? (!isBlank ·) s
  return .setenv name value

/-- `set NAME = VALUE`, where the value is the rest of the line, or a blank if there is no rest. -/
def assign? (s : Text) : Option Statement := do
  let s ← (after? "set" s).bind gap?
  let (name, s) ← run? (fun c => !isBlank c && c != '=') s
  let s ← afterMark? '=' s
  match trimStart s with
  | [] => (lastSpace? s).map (.assign name ·)
  | c :: cs => return .assign name (firstLine (c :: cs))

/-- `cd PATH`, where the path is not in quotes. -/
def changeDirectory? (s : Text) : Option Statement := do
  let s ← (after? "cd" s).bind gap?
  let path := trimEnd s
  if path.isEmpty || path.head? == some '"' || path.head? == some '\'' || path.contains '\n' then
    none
  else return .changeDirectory path

/-- `if !( CONDITION ) then`. -/
def ifNot? (s : Text) : Option Statement := do
  let s ← after? "if" s
  let s ← afterMark? '!' s
  let s ← afterMark? '(' s
  let condition ← part? closesThen (blanks s) (trimStart s)
  return .ifNot condition

/-- `if ( VARIABLE == VALUE ) then`. -/
def ifTest? (s : Text) : Option Statement := do
  let s ← after? "if" s
  return .ifTest (← equalityThen? s)

/-- `else if ( VARIABLE == VALUE ) then`. -/
def elseIf? (s : Text) : Option Statement := do
  let s ← (after? "else" s).bind gap?
  let s ← after? "if" s
  return .elseIf (← equalityThen? s)

/-- `while ( CONDITION )`. -/
def whileLoop? (s : Text) : Option Statement := do
  let s ← after? "while" s
  let s ← afterMark? '(' s
  let condition ← part? (closesLine ')') (blanks s) (trimStart s)
  return .whileLoop condition

/-- `foreach NAME ( ITEMS )`. -/
def foreachLoop? (s : Text) : Option Statement := do
  let s ← (after? "foreach" s).bind gap?
  let (name, s) ← run? (fun c => !isBlank c && c != '(') s
  let s ← afterMark? '(' s
  let items ← longest? closes (trimStart s)
  return .foreachLoop name items

/-- `switch ( $NAME )`, the name perhaps in quotes. -/
def switchOn? (s : Text) : Option Statement := do
  let s ← after? "switch" s
  let s ← afterMark? '(' s
  let s := trimStart s
  let s := if s.head? == some '"' then s.tail else s
  let (name, s) ← variableRun? (fun c => !isBlank c && !("()\"".toList).contains c) s
  let s := if s.head? == some '"' then s.tail else s
  if closes s then return .switchOn name else none

/-- `case PATTERN:`. -/
def caseArm? (s : Text) : Option Statement := do
  let s ← after? "case" s
  let rest ← gap? s
  let pattern ← part? (closesLine ':') (blanks s).tail rest
  return .caseArm pattern

/-- `default:`. -/
def defaultArm? (s : Text) : Option Statement := do
  let s ← after? "default" s
  let _ ← afterMark? ':' s
  return .defaultArm

/-- `alias NAME VALUE`, where the value is the rest of the line. -/
def alias? (s : Text) : Option Statement := do
  let s ← (after? "alias" s).bind gap?
  let (name, s) ← run? (!isBlank ·) s
  let s ← gap? s
  if s.isEmpty then none else return .alias name (firstLine s)

/-- `unalias ...`. -/
def unalias? (s : Text) : Option Statement := do
  let s ← after? "unalias" s
  let _ ← gap? s
  return .verbatim

/-- `goto TARGET`. -/
def jump? (s : Text) : Option Statement := do
  let s ← (after? "goto" s).bind gap?
  if s.isEmpty then none else return .jump (firstLine s)

/-- `NAME:`. -/
def label? (s : Text) : Option Statement :=
  let name := s.takeWhile isNameChar
  match s.dropWhile isNameChar with
  | ':' :: rest => if isName name && allBlank rest then some (.label name) else none
  | _ => none

/-- `source PATH`. -/
def source? (s : Text) : Option Statement := do
  let s ← (after? "source" s).bind gap?
  return .source (firstLine s)

end Seashell.Statement
