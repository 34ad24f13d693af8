import Seashell.Block
import Seashell.Notice
import Seashell.Statement.Basic

set_option autoImplicit false

/-! # Statements in Bash

`Statement.bash` is the Bash text of a statement. A text may span several lines; the empty text
means that the line is dropped. Most statements are put together from their parts, and a statement
that stays as it is gives back the line that holds it.

Only a label looks at the function block, and only a label changes it (`Statement.blockAfter`). A
condition that is converted as it is worded and combines comparisons is noticed
(`Statement.notices`). -/

namespace Seashell

open Text

/-- The test of a convertible `if`. -/
def Equality.test (e : Equality) : Text :=
  "\"$" ++ e.variableName ++ "\" " ++ (if e.negated then "!=".toList else "=".toList) ++ " \"" ++
    unquote e.value ++ "\""

namespace Statement

/-- The value of an alias: quoted, if it has blanks and no quote at its start. -/
def aliasValue (value : Text) : Text :=
  if !(value.head? == some '\'' || value.head? == some '"') && value.any isBlank then
    "'" ++ value ++ "'"
  else value

/-- The text of a jump: the function of the target is called and the script returns. A target known
    only at run time is evaluated. -/
def jumpText (target : Text) : Text :=
  (if target.head? == some '$' then "eval \"" ++ target ++ "\"" else target) ++ "\nreturn"

/-- The Bash text of a statement that `line` holds, given the function `block` before it. -/
def bash (line : Text) (block : Block) : Statement → Text
  | .interpreter => []
  | .verbatim => line
  | .setenv name value => "export " ++ name ++ "=" ++ value
  | .assign name value => name ++ "=" ++ value
  | .changeDirectory path => "cd \"" ++ path ++ "\""
  | .ifNot condition =>
    "if [ ! " ++ Condition.toTest (Condition.quoteFileTests condition) ++ " ]; then"
  | .ifTest test => "if [ " ++ test.test ++ " ]; then"
  | .elseIf test => "elif [ " ++ test.test ++ " ]; then"
  | .elseBranch => "else"
  | .endIf => "fi"
  | .whileLoop condition => "while [ " ++ Condition.toTest condition ++ " ]; do"
  | .foreachLoop name items => "for " ++ name ++ " in " ++ items ++ "; do"
  | .switchOn name => "case \"$" ++ name ++ "\" in"
  | .caseArm pattern => unquote pattern ++ ")"
  | .breakSwitch => ";;"
  | .defaultArm => "*)"
  | .endSwitch => "esac"
  | .endLoop => "done"
  | .alias name value => "alias " ++ name ++ "=" ++ aliasValue (trim value)
  | .jump target => jumpText (trim target)
  | .label name => block.labelText name
  | .source path => ". " ++ path

/-- The function block after a statement, given the `block` before it. -/
def blockAfter (block : Block) : Statement → Block
  | .label _ => .opened
  | _ => block

/-- The condition of a statement that is converted as it is worded, by `Condition.toTest` alone. -/
def wordedCondition? : Statement → Option Text
  | .ifNot condition => some condition
  | .whileLoop condition => some condition
  | _ => none

/-- A compound condition (`Condition.isCompound`) deserves a notice. -/
def notices (s : Statement) : List Notice :=
  match s.wordedCondition? with
  | some condition => if Condition.isCompound condition then [.compound condition] else []
  | none => []

end Statement
end Seashell
