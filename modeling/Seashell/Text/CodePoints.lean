import Seashell.Text.Basic

set_option autoImplicit false

/-! # Sets of code points

The character classes of Unicode are given as lists of closed ranges, in `Text.wordRanges`,
`Text.unprintableRanges` and the tables of `Seashell.Text.LetterCase`. `Text.inRanges` looks a code
point up in one of them. -/

namespace Seashell.Text

/-- The code point `n` lies in one of the closed `ranges`. -/
def inRanges (ranges : List (Nat × Nat)) (n : Nat) : Bool :=
  ranges.any fun r => r.1 ≤ n && n ≤ r.2

end Seashell.Text
