import Seashell.Path
import Seashell.Settings
import Seashell.Text.LetterCase

set_option autoImplicit false

/-! # Names of input and output files

The input file of a conversion is known by its extension, and the output file stands beside it with
another one. `Settings.accepts` compares in whatever letter case, and `Settings.outputName` then
cuts the extension off by its length. Nothing else is asked: the two extensions may be the same, and
then so are the two files. -/

namespace Seashell.Settings

/-- The name of `p` ends with the source extension, in whatever case. -/
def accepts (s : Settings) (p : Path) : Bool :=
  Text.endsWith (Text.lower p.name) (Text.lower s.sourceExtension.text)

/-- The name of the output file for `name`: as many characters as the source extension has make way
    for the target extension. -/
def outputName (s : Settings) (name : Text) : Text :=
  name.take (name.length - s.sourceExtension.text.length) ++ s.targetExtension.text

/-- The path of the output file, by `outputName`; `none` if that is no name of a file. -/
def outputPath? (s : Settings) (p : Path) : Option Path := p.withName? (s.outputName p.name)

end Seashell.Settings
