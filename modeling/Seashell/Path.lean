import Seashell.Text.Basic

set_option autoImplicit false

/-! # Paths

A `Path` is a place to start from and the parts to go through. `Path.ofText` reads one from a text:
empty parts and parts that stay in place vanish, while parts that go up stay, since what they lead
to is for a file system to say. `Path.text` writes it again, so that several texts have one path,
and the text of that path is one of them.

The last part of a path is its name. A name has an ending from its last dot on (`Path.suffix`), by
which the converter of a file is looked up, and can be replaced (`Path.withName?`), by which the
output of a conversion and the backup of a file stand beside it. `Path.child` goes on into a
directory. -/

namespace Seashell

open Text

/-- Where a `Path` starts. -/
inductive Path.Start where
  /-- The current directory. -/
  | here
  /-- The root directory. -/
  | root
  /-- The root directory as two slashes name it. -/
  | doubleRoot
deriving Repr, DecidableEq

/-- A path in a file tree. -/
structure Path where
  start : Path.Start
  parts : List Text
deriving Repr, DecidableEq

namespace Path

/-- The part stays in place, so that `partsOf` leaves it out. -/
def isStill (part : Text) : Bool := part.isEmpty || part == ['.']

/-- The parts of `t` between slashes that do not stay in place (`isStill`). -/
def partsOf (t : Text) : List Text := (List.splitOn '/' t).filter (!isStill ·)

/-- Where the path of a text starts. Two slashes are kept apart from one; three or more are one. -/
def startOf : Text → Start
  | '/' :: '/' :: '/' :: _ => .root
  | '/' :: '/' :: _ => .doubleRoot
  | '/' :: _ => .root
  | _ => .here

/-- The path that the text `t` names. -/
def ofText (t : Text) : Path := ⟨startOf t, partsOf t⟩

/-- The slashes of a `Start`. -/
def Start.text : Start → Text
  | .here => []
  | .root => "/"
  | .doubleRoot => "//"

/-- The text of a path; the empty path is a dot. `ofText` reads the path from it again. -/
def text (p : Path) : Text :=
  match p.start, p.parts with
  | .here, [] => ['.']
  | s, parts => s.text ++ join ['/'] parts

/-- The last part; empty if there is none. -/
def name (p : Path) : Text := p.parts.getLast?.getD []

/-- The ending of a name from its last dot on; empty if that dot is the first or last character. -/
def suffixOf (name : Text) : Text :=
  let tail := (name.reverse.takeWhile (· != '.')).reverse
  let lead := name.length - tail.length
  if tail.isEmpty || lead < 2 then [] else '.' :: tail

/-- The ending of the last part, by `suffixOf`. -/
def suffix (p : Path) : Text := suffixOf p.name

/-- The last part without its `suffix`. -/
def stem (p : Path) : Text := p.name.take (p.name.length - p.suffix.length)

/-- The extension of a file: its `suffix` without the dot. -/
def extension? (p : Path) : Option Text :=
  match p.suffix with
  | [] => none
  | _ :: rest => some rest

/-- The text `t` can stand in place of a last part. -/
def isName (t : Text) : Bool := startOf t == .here && !endsWith t ['/'] && (partsOf t).length == 1

/-- The path with the last part `t`; `none` without a last part, or if `t` is no name (`isName`). -/
def withName? (p : Path) (t : Text) : Option Path :=
  if !p.name.isEmpty && isName t then some ⟨p.start, p.parts.dropLast ++ [t]⟩ else none

/-- The path `q` seen from `p`. -/
def append (p q : Path) : Path :=
  match q.start with
  | .here => ⟨p.start, p.parts ++ q.parts⟩
  | _ => q

/-- The path of `t` in the directory `p`. -/
def child (p : Path) (t : Text) : Path := p.append (ofText t)

end Path
end Seashell
