import Seashell.CommandLine.Command
import Seashell.Conversion
import Seashell.Reencoding
import Seashell.Report.Document

set_option autoImplicit false

/-! # Running commands

A command works on a workspace and prints. `Command.run` runs one, on a `Platform` that has what the
library does not: the codecs of the system and a reader of documents. What comes of it is a
`Completion`. A failure of conversion is told to the user (`endingOfFailure`); any other one ends
the command.

A file is converted by the entry of the converter table for its extension (`convertByTable`), or by
settings from a file (`convertInput`). A directory is re-encoded by one of those entries, with the
standard `Reencoding`, or by a command of its own, with the one that its options say (`reencoding`).

`run` takes a command line as it is given, by the reader of `Seashell.CommandLine.Command`. -/

namespace Seashell

/-- What `Command.run` takes from the system and from other libraries. -/
structure Platform where
  codecs : Codecs
  /-- The reader of documents of settings, as `Workspace.loadSettings` takes it. -/
  load : Text → Except Yaml.Fault Settings.Document

namespace CommandLine

/-- How a `Command` ended. -/
inductive Ending where
  /-- What was printed, with the exit code of the command. -/
  | exit (code : Nat) (output errors : Text)
  /-- There was no command to run. -/
  | misuse
  /-- A failure that the command does not handle. -/
  | crash (failure : Failure)
deriving Repr, DecidableEq

/-- What is left of a `Command` that was run. -/
structure Completion where
  ending : Ending
  workspace : Workspace
  notices : List Notice := []

/-- The lines of a log, `LogLine.text` by `LogLine.text`. -/
def logText (log : List LogLine) : Text := log.flatMap fun l => l.text ++ ['\n']

/-- Tells a failure after what was logged, if it has a wording (`Failure.report?`). -/
def endingOfFailure (f : Failure) (log : List LogLine) : Ending :=
  match f.report? with
  | some message => .exit 1 [] (logText log ++ "Error: " ++ message ++ ['\n'])
  | none => .crash f

/-- The completion of a run whose result `print` prints. -/
def Completion.ofRun {α : Type} (run : Run α) (print : α → Text) : Completion where
  ending :=
    match run.outcome with
    | .ok a => .exit 0 (print a) (logText run.log)
    | .error f => endingOfFailure f run.log
  workspace := run.workspace
  notices := run.notices

/-- Converts a file by the entry of `ConverterTable.standard` for its extension and `kind`. -/
def convertByTable (w : Workspace) (codecs : Codecs) (given kind : Text) : Run Path :=
  match ConverterTable.standard.find given kind with
  | .error f => w.fail (.unsupported f)
  | .ok (.makes (.converter .script)) => w.convertFile codecs .standard given
  | .ok (.makes (.converter .reencoding)) => w.reencodeDirectory codecs {} given
  | .ok _ => w.fail .inertEntry

/-- Converts a file, by settings from a file if there is one, and by `convertByTable` otherwise. -/
def convertInput (w : Workspace) (p : Platform) (input : Path) (kind : Text) : Option Path → Run Path
  | none => convertByTable w p.codecs input.text kind
  | some settings =>
    if Text.lower kind != "sh".toList then w.fail (.invalid (.settingsForKind kind))
    else match w.loadSettings p.load settings.text with
      | .error f => w.fail f
      | .ok s => w.convertFile p.codecs s input.text

/-- The report on a script, as it is printed in `format`. -/
def reportText (w : Workspace) (input : Path) (format : Text) : Except Failure Text := do
  let report ← w.analyzeFile input.text
  match String.ofList format with
  | "json" => return report.toJson ++ ['\n']
  | "yaml" => return report.toYaml
  | _ => throw (.invalid (.unknownFormat format))

/-- Prints the `Trace` of a script. A missing file is told as the system words it. -/
def printTrace (w : Workspace) (input : Path) : Completion :=
  match w.readText input.text with
  | .ok script =>
    let trace := Trace.ofLines .closed (Text.splitLines script)
    { ending := .exit 0 trace.toYaml [], workspace := w, notices := trace.notices }
  | .error (.system ⟨.notFound, path⟩) =>
    { ending := .exit 1 [] ("Error: " ++ (SystemFault.mk .notFound path).message ++ ['\n']),
      workspace := w }
  | .error f => { ending := .crash (.file f), workspace := w }

/-- The re-encoding that a command asks for; without extensions `Selection.standardExtensions` are
    meant. -/
def reencoding (source target : Text) (extensions : Option Text) (backup silent : Bool) :
    Reencoding :=
  let wanted := match extensions with
    | none => Selection.standardExtensions
    | some [] => Selection.standardExtensions
    | some t => t.splitOn ','
  { source, target, extensions := wanted, backup, silent }

/-- Runs a command on the workspace `w` and the platform `p`. -/
def Command.run (w : Workspace) (p : Platform) : Command → Completion
  | .convert input kind settings =>
    .ofRun (convertInput w p input kind settings) fun output =>
      "Converted: " ++ (w.absolute output).text ++ ['\n']
  | .analyze input format trace =>
    if trace then printTrace w input
    else .ofRun { outcome := reportText w input format, workspace := w } id
  | .reencode root source target extensions backup silent =>
    .ofRun
      (w.reencodeDirectory p.codecs (reencoding source target extensions backup silent) root.text)
      fun _ => if silent then [] else "Conversion finished.\n"

/-- Runs what a command line asks for, as `read` reads it. -/
def run (w : Workspace) (p : Platform) (args : List Text) : Completion :=
  match read args with
  | .ok command => command.run w p
  | .error .usage => { ending := .misuse, workspace := w }
  | .error (.nul path) => { ending := .crash (.file (.system ⟨.nul, path⟩)), workspace := w }

/-! ## What a command looks at -/

/-- The paths that a command looks at, as far as they are known from the workspace `w`: which output
    file a conversion has is known only when its settings can be read. -/
def Command.places (w : Workspace) (p : Platform) : Command → List Path
  | .convert input _ settings =>
    let output := match settings with
      | none => Settings.standard.outputPath? input
      | some path =>
        match w.loadSettings p.load path.text with
        | .ok s => s.outputPath? input
        | .error _ => none
    input :: settings.toList ++ output.toList
  | .analyze input _ _ => [input]
  | .reencode root _ _ _ _ _ => [root]

end CommandLine
end Seashell
