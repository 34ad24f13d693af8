import Seashell.Charset.Library
import Seashell.CommandLine.Run
import Seashell.Yaml.Reader

set_option autoImplicit false

/-! # The platform of the program

What the command line program is run with: the encodings of `Seashell.Charset.Library`, and the
reader of `Seashell.Yaml.Reader`. Nothing but the program itself and examples of what it does
depends on them. -/

namespace Seashell.Platform

/-- Reads a document of settings by `Yaml.parse`. -/
def loadYaml (document : Text) : Except Yaml.Fault Settings.Document :=
  (Yaml.parse document).map .ofValue

/-- The platform that the program is run on. -/
def standard : Platform := ⟨Charset.codecs, loadYaml⟩

end Seashell.Platform
