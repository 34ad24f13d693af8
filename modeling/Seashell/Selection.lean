import Seashell.Text.LetterCase

set_option autoImplicit false

/-! # Selected files

Which files below a directory a re-encoding takes: those whose names end with a wanted extension, in
whatever case (`Selection.nameMatches`), outside of the directories that hold no sources
(`Selection.excluded`). Extensions are given in any form and compared in one
(`Selection.normalizeExtensions`). The walk that finds the files is `Workspace.walk`. -/

namespace Seashell.Selection

open Text

/-- The names of the directories that are not entered. -/
def excluded : List Text :=
  ["target".toList, ".git".toList, ".svn".toList, "node_modules".toList, "build".toList, "out".toList]

/-- The extensions that are wanted if nothing else is said. -/
def standardExtensions : List Text :=
  [".java".toList, ".js".toList, ".jsp".toList, ".xhtml".toList, ".html".toList, ".sql".toList]

/-- The form in which `extension` is compared; `none` if nothing is left of it. -/
def normalize? (extension : Text) : Option Text :=
  match lower (trim extension) with
  | [] => none
  | '.' :: rest => some ('.' :: rest)
  | t => some ('.' :: t)

/-- Extensions in lower case, with a dot in front, by `normalize?`; empty ones are dropped. -/
def normalizeExtensions (extensions : List Text) : List Text := extensions.filterMap normalize?

/-- The name of a file ends with one of the extensions that are `wanted`, as `normalizeExtensions`
    has them. -/
def nameMatches (wanted : List Text) (name : Text) : Bool := wanted.any (endsWith (lower name) ·)

end Seashell.Selection
