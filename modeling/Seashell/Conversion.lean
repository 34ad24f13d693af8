import Seashell.Charset.Utf8
import Seashell.Codec
import Seashell.Failure
import Seashell.Report.Analysis
import Seashell.Script
import Seashell.Settings.Output

set_option autoImplicit false

/-! # Conversion of files

A script file is converted into a file beside it. `Workspace.convertFile` asks whether the settings
take the file, whether there is one, and whether its encoding is known. Then `Workspace.convertTo`
opens the output, which is empty from then on, and reads and writes: the interpreter line is written
before the first line is read, and each line of the script is converted and written before the next
one is read.

So a conversion that fails leaves what it had written. `Rendering.ofReading` says what that is, from
the lines that could be read and the codec that they are written in: `Rendering.ofEvents` goes
through the events of the script and stops where a text has no bytes. If input and output are one
file then the lines are those that are read back from the output (`Codec.readBack`), and what was in
the file is lost.

The other files that are read are in UTF-8 and are read as a whole (`Workspace.readText`): scripts
for their analysis, and settings. What a document of settings holds is for a reader of documents to
say, which `Workspace.loadSettings` takes as a parameter. -/

namespace Seashell

/-! ## Contents -/

/-- What a conversion writes and says, up to where it fails. -/
structure Rendering where
  written : Bytes
  fault : Option FileFault
  notices : List Notice
deriving Repr, DecidableEq

namespace Rendering

open Script (Event)

/-- What comes of events if `before` are the texts that have been written, and if `last` is the
    fault that follows them. It stops where a text has no bytes. -/
def ofEvents (codec : Codec) (last : Option FileFault) (before : List Text) : List Event → Rendering
  | [] => ⟨[], last, []⟩
  | .notice n :: rest =>
    let later := ofEvents codec last before rest
    { later with notices := n :: later.notices }
  | .write t :: rest =>
    match codec.encode before t with
    | .error f => ⟨[], some (.encoding f), []⟩
    | .ok bytes =>
      let later := ofEvents codec last (before ++ [t]) rest
      { later with written := bytes ++ later.written }

/-- The conversion of what is read of a script, line by line: what comes of `Script.events`. -/
def ofReading (settings : Settings) (codec : Codec) (reading : Codec.Reading) : Rendering :=
  ofEvents codec (reading.fault.map .decoding) []
    (Script.events settings reading.fault.isNone reading.lines)

end Rendering

/-- The bytes that are written before anything is read: the interpreter line, as far as it has
    bytes. -/
def Codec.leadBytes (codec : Codec) (settings : Settings) : Bytes :=
  (codec.writeAll [] [settings.interpreterLine, ['\n']]).bytes

namespace Workspace

/-- A run that fails with `f` and leaves the workspace. -/
def fail {α : Type} (w : Workspace) (f : Failure) : Run α := { outcome := .error f, workspace := w }

/-! ## Converting a file -/

/-- The paths `p` and `q` lead to one place. -/
def samePlace (w : Workspace) (p q : Path) : Bool :=
  match w.locate p.text, w.locate q.text with
  | .ok r, .ok s => decide (r = s)
  | _, _ => false

/-- Converts a file with some `content` into the file at `output`. If that is the file itself then
    what is read is read back from the output. -/
def convertTo (w : Workspace) (settings : Settings) (codec : Codec) (given : Text)
    (input output : Path) (content : Bytes) : Run Path :=
  match w.write output.text [] with
  | .error f => w.fail (.ofOpening given f)
  | .ok opened =>
    let reading :=
      if w.samePlace input output then codec.readBack (codec.leadBytes settings)
      else codec.readLines content
    let rendering := Rendering.ofReading settings codec reading
    match opened.write output.text rendering.written with
    | .error f => opened.fail (.ofOpening given f)
    | .ok written =>
      { outcome := match rendering.fault with
          | some f => .error (.unconverted given f)
          | none => .ok output
        workspace := written
        notices := rendering.notices }

/-- Converts a script file into a file beside it, its `Settings.outputPath?`; the path is given as
    text. -/
def convertFile (w : Workspace) (codecs : Codecs) (settings : Settings) (given : Text) : Run Path :=
  let input := Path.ofText given
  if !settings.accepts input then
    w.fail (.invalid (.wrongExtension settings.sourceExtension.text given))
  else match w.look input.text, settings.outputPath? input with
    | .error f, _ => w.fail (.file (.system f))
    | .ok none, _ => w.fail (.missing .input given)
    | .ok (some _), none => w.fail .badName
    | .ok (some _), some output =>
      if !Codecs.isNamable settings.encoding then w.fail .badEncodingName
      else match w.read input.text, codecs.text? settings.encoding with
        | .error f, _ => w.fail (.ofOpening given f)
        | .ok _, none => w.fail .unknownEncoding
        | .ok content, some codec => w.convertTo settings codec given input output content

/-! ## Reading other files -/

/-- The text of a file in UTF-8, with line feeds as line ends. -/
def readText (w : Workspace) (path : Text) : Except FileFault Text :=
  match w.read path with
  | .error f => .error (.system f)
  | .ok content =>
    match Charset.Utf8.decode content with
    | .error f => .error (.decoding f)
    | .ok t => .ok (Text.unixNewlines t)

/-- The text of a file by `readText`; a failure names the `purpose` of a file that is missing. -/
def readTextFor (w : Workspace) (purpose : Purpose) (path given : Text) : Except Failure Text :=
  match w.readText path with
  | .ok t => .ok t
  | .error (.system ⟨.notFound, _⟩) => .error (.missing purpose given)
  | .error f => .error (.file f)

/-- The `Report` on a script file. -/
def analyzeFile (w : Workspace) (given : Text) : Except Failure Report := do
  let path := Path.ofText given
  let script ← w.readTextFor .script path.text given
  return Report.ofScript path.stem script

/-- The settings that a file holds, by `load`, a reader of documents. -/
def loadSettings (w : Workspace) (load : Text → Except Yaml.Fault Settings.Document) (given : Text) :
    Except Failure Settings := do
  let document ← w.readTextFor .settings given given
  match load document with
  | .error .malformed => throw (.invalid (.malformedSettings given))
  | .error f => throw (.unreadable f)
  | .ok d => (Settings.ofDocument d).mapError Failure.ofSettings

end Workspace
end Seashell
