import Seashell.Rule
import Seashell.Substitution
import Seashell.Text.Lines

set_option autoImplicit false

/-! # Traces

Converting a script leaves a `Trace`: one `LineRecord` for each physical line, with the lines that
were written for it. All that passes from one line to the next is the function block.

`LineStep.ofRaw` is the step for one line. It cleans the line of its terminator (`cleanLine`), drops
an interpreter line at the top, keeps a blank line as an empty one, and puts any other line through
the rules (`LineStep.ofLine`). `Trace.ofLinesFrom` takes these steps from line to line, each with
the block that the one before it has left. What is written is `Trace.output`, to which
`Script.convertLines` adds a first and perhaps a last line. -/

namespace Seashell

open Text

/-- What became of a line, by which traces and reports tell lines apart. -/
inductive Category where
  /-- The interpreter line at the top, which is dropped. -/
  | interpreter
  /-- Nothing but blanks; an empty line is written. -/
  | blank
  /-- A rule of the table converted it. -/
  | rule (r : Rule)
deriving Repr, DecidableEq

/-- The name of a `Category` in traces and reports. -/
def Category.name : Category → Text
  | .interpreter => "source_header"
  | .blank => "blank"
  | .rule r => r.name

/-- What happened to one physical line. -/
structure LineRecord where
  number : Int
  /-- The line, without its terminator. -/
  source : Text
  category : Category
  /-- The lines written for it, indentation included. -/
  output : List Text
deriving Repr, DecidableEq

/-- Something else than the line itself was written: the `output` is not the `source` alone. -/
def LineRecord.changed (r : LineRecord) : Bool := r.output != [r.source]

/-- A record with the function block after its line and the notices that the line gave rise to. -/
structure LineStep where
  record : LineRecord
  block : Block
  notices : List Notice
deriving Repr, DecidableEq

namespace LineStep

/-- A label that is indented deserves a notice, `Notice.nestedLabel`. -/
def nestingNotices (number : Int) (line : Text) (rule : Rule) : List Notice :=
  let (indent, body) := splitIndent line
  if rule = .label ∧ indent ≠ [] then [.nestedLabel number (trimEnd body)] else []

/-- Puts `line` through the rules: the indentation is taken off, substitutions get the newer
    spelling, and the indentation is put back before every output line. -/
def ofLine (number : Int) (block : Block) (line : Text) : LineStep :=
  let (indent, body) := splitIndent line
  let o := Outcome.ofLine Rule.standard block (Substitution.modernize body)
  let output := if o.text.isEmpty then [] else applyIndent indent o.text
  ⟨⟨number, line, .rule o.rule, output⟩, o.block, o.notices ++ nestingNotices number line o.rule⟩

/-- The line `raw` as it is read, without line feeds at its end and without carriage returns. -/
def cleanLine (raw : Text) : Text :=
  (raw.reverse.dropWhile (· == '\n')).reverse.filter (· != '\r')

/-- Converts the line of a given `number`. An interpreter line at the top is dropped and a blank
    line is kept as an empty one; neither reaches the rules. -/
def ofRaw (number : Nat) (block : Block) (raw : Text) : LineStep :=
  let line := cleanLine raw
  if number = 1 ∧ (trim line).startsWith "#!" then
    ⟨⟨number, line, .interpreter, []⟩, block, []⟩
  else if allBlank line then ⟨⟨number, line, .blank, [[]]⟩, block, []⟩
  else ofLine number block line

end LineStep

/-- The records of some lines, the function block after them and their notices. -/
structure Trace where
  records : List LineRecord
  block : Block
  notices : List Notice
deriving Repr, DecidableEq

namespace Trace

/-- The trace of lines of which the first has a given `number`, from the function `block` on. -/
def ofLinesFrom : Nat → Block → List Text → Trace
  | _, block, [] => ⟨[], block, []⟩
  | number, block, raw :: rest =>
    let step := LineStep.ofRaw number block raw
    let later := ofLinesFrom (number + 1) step.block rest
    ⟨step.record :: later.records, later.block, step.notices ++ later.notices⟩

/-- The trace of the `lines` of a script. -/
def ofLines (block : Block) (lines : List Text) : Trace := ofLinesFrom 1 block lines

/-- Everything written for the lines of the trace `t`. -/
def output (t : Trace) : List Text := t.records.flatMap (·.output)

end Trace
end Seashell
