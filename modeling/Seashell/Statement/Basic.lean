import Seashell.Condition

set_option autoImplicit false

/-! # Statements

What the converter understands of one line of a C shell script, its indentation removed and its
substitutions in the newer spelling. A `Statement` has the parts of the line that are written again,
and nothing else: what the scanners of `Seashell.Statement.Scan` skip is lost, and what
`Statement.bash` writes follows from the parts. -/

namespace Seashell

/-- A variable compared with a value, for equality or inequality: the condition of a convertible
    `if`. -/
structure Equality where
  variableName : Text
  negated : Bool
  value : Text
deriving Repr, DecidableEq

/-- The statement that a line holds, as one of the rules recognises it. -/
inductive Statement where
  /-- An interpreter line, which the converted script drops. -/
  | interpreter
  /-- A line that stays as it is. -/
  | verbatim
  | setenv (name value : Text)
  | assign (name value : Text)
  | changeDirectory (path : Text)
  | ifNot (condition : Text)
  | ifTest (test : Equality)
  | elseIf (test : Equality)
  | elseBranch
  | endIf
  | whileLoop (condition : Text)
  | foreachLoop (name items : Text)
  | switchOn (name : Text)
  | caseArm (pattern : Text)
  | breakSwitch
  | defaultArm
  | endSwitch
  | endLoop
  | alias (name value : Text)
  | jump (target : Text)
  | label (name : Text)
  | source (path : Text)
deriving Repr, DecidableEq

end Seashell
