import Seashell.Text.Decimal
import Seashell.Text.Literal

set_option autoImplicit false

/-! # Notices

Notices point at constructs that a line-by-line conversion cannot represent: conditions that are
converted as they are worded though their parts would have to be taken apart (`Notice.compound`),
and labels inside of other constructs, which become the heads of functions all the same
(`Notice.nestedLabel`). They are said while a script is converted (`LineStep.notices`) and are no
part of what is written. -/

namespace Seashell

/-- Something that the author of a script should look at. -/
inductive Notice where
  /-- A condition with `&&` or `||`, converted as it is worded. -/
  | compound (condition : Text)
  /-- An indented label. -/
  | nestedLabel (line : Int) (label : Text)
deriving Repr, DecidableEq

/-- The wording of a `Notice`. -/
def Notice.message : Notice → Text
  | .compound condition =>
    "Compound condition is not supported and was rewritten textually: " ++ condition
  | .nestedLabel line label =>
    "Line " ++ Text.ofInt line ++ ": label " ++ Text.literal label ++
      " is nested inside another block; jumps into nested blocks are not supported"

end Seashell
