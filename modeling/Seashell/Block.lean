import Seashell.Text.Basic

set_option autoImplicit false

/-! # Function blocks

The C shell has labels and jumps, which shell functions stand in for. Each label becomes the head of
a function whose body runs to the next label or to the end of the script, so one bit of state says
whether a function is open: a `Block`.

A label makes the text `Block.labelText`, which ends the function that is open before it begins its
own. At the end of a script `Block.finish` ends the one that is still open. Both are used by
`LineStep.ofRaw` and `Script.convertLines`, line after line, and by the trackers of
`Seashell.Block.Pool`. -/

namespace Seashell

/-- Whether a function made from a label is still open. -/
inductive Block where
  | closed
  | opened
deriving Repr, DecidableEq

namespace Block

/-- The head of the function for `label`. -/
def head (label : Text) : Text := label ++ "() \x7b"

/-- The line that ends a function, whichever `head` it has. -/
def tail : Text := "\x7d"

/-- The text that `label` makes: the `tail` of the function that is open, if there is one, and its
    own `head`. -/
def labelText (label : Text) : Block → Text
  | .closed => head label
  | .opened => Text.join "\n" [tail, [], head label]

/-- The lines that the end of the script makes: the `tail` of a function that is open. -/
def finish : Block → List Text
  | .closed => []
  | .opened => [tail]

end Block
end Seashell
