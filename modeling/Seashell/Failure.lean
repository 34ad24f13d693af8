import Seashell.ConverterTable
import Seashell.FileTree.Workspace
import Seashell.Notice
import Seashell.Settings.Reading
import Seashell.Yaml.Fault

set_option autoImplicit false

/-! # Failures

Everything that can keep an operation on files from its result is a `Failure`, by cause. Failures of
conversion have a wording (`Failure.report?`) and are told to the user: an `InvalidInput`, a file
that is missing for some `Purpose`, a file that could not be converted, or an entry that the
converter table does not have. The others are those of reading and writing files outside of a
conversion (`FileFault`) and of values that cannot be used at all.

A `Run` is an operation on files with its result or failure, the workspace that it leaves in either
case, and what it said on the way: notices about the script, and one `LogLine` for each file of a
re-encoding. -/

namespace Seashell

/-- What is wrong with a request, where its `message` is for the user. -/
inductive InvalidInput where
  | wrongExtension (extension path : Text)
  | notDirectory (path : Text)
  | unsupportedEncoding (name : Text)
  /-- Settings do not hold what they should. -/
  | settings (fault : Settings.Fault)
  /-- A file of settings breaks the rules of its format. -/
  | malformedSettings (path : Text)
  /-- Settings are given for a kind of output that has none. -/
  | settingsForKind (kind : Text)
  | unknownFormat (format : Text)
deriving Repr, DecidableEq

/-- The wording of an `InvalidInput`. -/
def InvalidInput.message : InvalidInput → Text
  | .wrongExtension extension path => "Expected a " ++ extension ++ " file: " ++ path
  | .notDirectory path => "Not a valid directory: " ++ path
  | .unsupportedEncoding name => "Unsupported encoding: " ++ name
  | .settings fault => fault.message?.getD []
  | .malformedSettings path => "Invalid configuration file " ++ path ++ ": not a YAML document"
  | .settingsForKind kind => "--config only applies to --to sh, not " ++ kind
  | .unknownFormat format => "Unknown report format: " ++ format

/-- What a missing file is needed for. -/
inductive Purpose where
  | input
  | settings
  | script
deriving Repr, DecidableEq

/-- The wording for a file that is missing for a `Purpose`. -/
def Purpose.missing : Purpose → Text
  | .input => "Input file does not exist: "
  | .settings => "Configuration file not found: "
  | .script => "Script not found: "

/-- Why a file cannot be read or written. -/
inductive FileFault where
  | system (fault : SystemFault)
  /-- The bytes of the file are no text. -/
  | decoding (fault : Charset.Fault)
  /-- The text for the file has no bytes. -/
  | encoding (fault : Charset.Fault)
deriving Repr, DecidableEq

/-- The wording of a `FileFault`. -/
def FileFault.message : FileFault → Text
  | .system f => f.message
  | .decoding f => f.message
  | .encoding f => f.message

/-- Why an operation has no result. -/
inductive Failure where
  | invalid (input : InvalidInput)
  | missing (purpose : Purpose) (path : Text)
  /-- A file could not be converted. -/
  | unconverted (path : Text) (fault : FileFault)
  | unsupported (fault : ConverterTable.Fault)
  /-- A file could not be read or written, outside of a conversion. -/
  | file (fault : FileFault)
  /-- There is no character encoding of that name, or it is not one of text. -/
  | unknownEncoding
  /-- The name of a file would be no name. -/
  | badName
  /-- The name of a character encoding holds a NUL character. -/
  | badEncodingName
  /-- A key is not even a name. -/
  | unnamedKey
  /-- A document cannot be read, though its form may be right; why not is for the `fault` to say. -/
  | unreadable (fault : Yaml.Fault)
  /-- A value cannot be written: there is an integer with too many digits in it. -/
  | unwritable
  /-- An entry of the converter table cannot make anything. -/
  | inertEntry
deriving Repr, DecidableEq

/-- The wording of a failure of conversion; the others have none. -/
def Failure.report? : Failure → Option Text
  | .invalid input => some input.message
  | .missing purpose path => some (purpose.missing ++ path)
  | .unconverted path fault => some ("Failed to convert " ++ path ++ ": " ++ fault.message)
  | .unsupported fault => some fault.message
  | _ => none

/-- The failure of settings that cannot be read: a `Settings.Fault` with a wording is an invalid
    input. -/
def Failure.ofSettings : Settings.Fault → Failure
  | .unnamedKey => .unnamedKey
  | .unwritable => .unwritable
  | f => .invalid (.settings f)

/-- The failure of a file that is not opened for its conversion. A path that the system cannot be
    asked for is a failure of its own: `Obstacle.nul`. -/
def Failure.ofOpening (given : Text) (f : SystemFault) : Failure :=
  if f.obstacle = .nul then .file (.system f) else .unconverted given (.system f)

/-- What happened to a file of a re-encoding. -/
inductive LogLine where
  | converted (path : Text)
  | failed (path : Text) (fault : FileFault)
deriving Repr, DecidableEq

/-- The wording of a `LogLine`. -/
def LogLine.text : LogLine → Text
  | .converted path => "INFO: Converted: " ++ path
  | .failed path fault => "ERROR: Error: " ++ path ++ " -> " ++ fault.message

/-- An operation on files: its result or failure, the workspace that it leaves in either case, and
    what it said on the way. -/
structure Run (α : Type) where
  outcome : Except Failure α
  workspace : Workspace
  notices : List Notice := []
  log : List LogLine := []

end Seashell
