import Seashell.Settings
import Seashell.Trace

set_option autoImplicit false

/-! # Scripts

The conversion of a whole script: the interpreter line of the settings, then what the trace wrote,
then the end of a function that is still open. `Script.convertLines` gives the lines of the
converted script, `Script.notices` what is said on the way, and `Script.convertText` converts a
script in memory.

A file is converted while it is read, and lines and notices come in an order: what is noticed in a
line is said before anything is written for it. `Script.events` has both in that order, for the
lines that could be read; whether the script goes on or could not be read any further is the last
thing that is known of it. -/

namespace Seashell.Script

/-- The lines of the converted script: what the trace of `lines` wrote, between the interpreter line
    and the end of an open function. -/
def convertLines (settings : Settings) (lines : List Text) : List Text :=
  let trace := Trace.ofLines .closed lines
  settings.interpreterLine :: trace.output ++ trace.block.finish

/-- The notices of a conversion of `lines`. -/
def notices (lines : List Text) : List Notice := (Trace.ofLines .closed lines).notices

/-- Lines as the text of a file, each with a line feed. -/
def fileText (lines : List Text) : Text := lines.flatMap (· ++ ['\n'])

/-- The text of the converted script: the lines of `convertLines` with line feeds between them and
    one at the end. -/
def convertText (settings : Settings) (script : Text) : Text :=
  Text.join "\n" (convertLines settings (Text.splitLines script)) ++ "\n"

/-! ## One thing after the other -/

/-- What a conversion does, as `events` has it. -/
inductive Event where
  | notice (n : Notice)
  /-- A text is written. -/
  | write (t : Text)
deriving Repr, DecidableEq

/-- Writes `lines`. A line and its line feed are two texts. -/
def writeLines (lines : List Text) : List Event :=
  lines.flatMap fun line => [.write line, .write ['\n']]

/-- What is done for lines of which the first has the given number. If the script is `whole` then a
    function that is still open is closed after them. -/
def eventsFrom (whole : Bool) : Nat → Block → List Text → List Event
  | _, block, [] => if whole then writeLines block.finish else []
  | number, block, raw :: rest =>
    let step := LineStep.ofRaw number block raw
    step.notices.map .notice ++ writeLines step.record.output
      ++ eventsFrom whole (number + 1) step.block rest

/-- What is done for a script of which some lines could be read, or, if it is `whole`, all. -/
def events (settings : Settings) (whole : Bool) (lines : List Text) : List Event :=
  writeLines [settings.interpreterLine] ++ eventsFrom whole 1 .closed lines

end Seashell.Script
