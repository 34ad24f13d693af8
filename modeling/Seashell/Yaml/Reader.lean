import Seashell.Yaml.Meaning

set_option autoImplicit false

/-! # Reading YAML

A text is read in three steps: its tokens (`tokensOf`), the node that they spell (`Node.ofTokens`),
and the value that the node stands for (`Node.value`). It holds one document or none.

The reader takes the part of the format that reports, traces and settings are written in, and
somewhat more. Anchors, tags and directives are refused, though they are part of the format; a
program that is to take them is run with another reader of settings (a `Platform` of its own). -/

namespace Seashell.Yaml

/-- The tokens of the text `s`. A byte order mark may stand before them. -/
def tokensOf (s : Text) : List Token :=
  if s.all isAllowed then
    tokens (normalizeBreaks (if s.head? = some '\ufeff' then s.tail else s))
  else [.broken .malformed]

/-- The value of the document `s`. -/
def parse (s : Text) : Except Fault Value := do
  let n ← Node.ofTokens (tokensOf s)
  n.value

end Seashell.Yaml
