import Seashell.Text.Basic

set_option autoImplicit false

/-! # Settings

What a conversion needs to know besides the script: which files it takes, how the files that it
writes are called, the interpreter line to begin them with, and how text is stored in files. An
`Extension` always has its dot, whether or not one was given (`Extension.ofText`), and every field
of `Settings` has a default, with which they are `Settings.standard`. Settings from a document are
read in `Seashell.Settings.Reading`, and the names that follow from them are in
`Seashell.Settings.Output`. -/

namespace Seashell

/-- A file extension, which begins with a dot. -/
structure Extension where
  /-- What follows the dot. -/
  afterDot : Text
deriving Repr, DecidableEq

/-- The extension that a text stands for; a missing dot is put in front by `Extension.text`. -/
def Extension.ofText : Text → Extension
  | '.' :: rest => ⟨rest⟩
  | t => ⟨t⟩

/-- The extension with its dot. -/
def Extension.text (e : Extension) : Text := '.' :: e.afterDot

/-- The settings of a conversion, by `Workspace.convertFile`. -/
structure Settings where
  /-- Input files end with it, in whatever case. -/
  sourceExtension : Extension := ⟨"csh"⟩
  /-- Output files end with it. -/
  targetExtension : Extension := ⟨"sh"⟩
  /-- The first line of every output file. -/
  interpreterLine : Text := "#!/bin/bash"
  /-- The name of the character encoding of input and output, for `Codecs.text?`. -/
  encoding : Text := "utf-8"
deriving Repr, DecidableEq

/-- The settings for the conversion from C shell to Bash. -/
def Settings.standard : Settings := {}

end Seashell
