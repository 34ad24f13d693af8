import Seashell.Conversion
import Seashell.Example
import Seashell.Value.Display

set_option autoImplicit false

/-! # A demonstration

The whole way of a script: `Example.script` is written into a file, analyzed, its converter is
looked up in `ConverterTable.standard`, and it is converted. The `transcript` tells what happened,
with the counts of the report and the first lines of the output. -/

namespace Seashell.Demo

open Text

/-- A line of one character `c`. -/
def ruler (c : Char) : Text := List.replicate 80 c

/-- An item that is done. -/
def done (t : Text) : Text := "   ✓ " ++ t

/-- The lines about the report `r`. -/
def reportLines (r : Report) : List Text :=
  [done ("Lines: " ++ ofInt r.totalLines ++ " (" ++ ofInt r.blankLines ++ " blank)"),
    done ("Labels: " ++ (Value.texts r.labels).display),
    done ("goto targets: " ++ (Value.texts r.gotoTargets).display),
    done ("Block left open at end: " ++ (Value.bool r.unclosedBlockAtEnd).display)]
  ++ (if r.warnings.isEmpty then []
    else [[], "   Warnings (".toList ++ ofNat r.warnings.length ++ "):".toList]
      ++ r.warnings.map ("      - ".toList ++ ·))

/-- The first lines of a file, and how many more there are. -/
def excerpt (lines : List Text) : List Text :=
  (lines.take 30).map ("   ".toList ++ ·)
  ++ (if lines.length ≤ 30 then []
    else ["   ... (".toList ++ ofNat (lines.length - 30) ++ " more lines)".toList])

/-- The transcript of a demonstration in `directory`. -/
def transcript (w : Workspace) (codecs : Codecs) (directory : Path) : Except Failure Text := do
  let (source, w) ← (Example.write w directory Example.fileName).mapError (.file ∘ .system)
  let report := Report.ofScript source.stem Example.script
  let converter ← match ← (ConverterTable.standard.make source.text "sh").mapError .unsupported with
    | some product => pure product.name
    | none => throw .inertEntry
  let run := w.convertFile codecs .standard source.text
  let output ← run.outcome
  let converted ← (run.workspace.readText output.text).mapError .file
  let lines : List Text :=
    [ruler '=', "COMPLETE PIPELINE DEMO: csh → Analysis → Registry → sh".toList, ruler '=',
      [], "1. WRITING EXAMPLE SCRIPT...".toList, done source.text,
      [], "2. ANALYZING SCRIPT...".toList]
    ++ reportLines report
    ++ [[], "3. LOOKING UP CONVERTER...".toList, done (source.suffix ++ " -> sh: " ++ converter),
      [], "4. CONVERTING...".toList, done ("Wrote " ++ output.text), ruler '-']
    ++ excerpt (converted.splitOn '\n')
    ++ [[], ruler '=', "PIPELINE COMPLETE!".toList, ruler '=']
  return lines.flatMap (· ++ ['\n'])

end Seashell.Demo
