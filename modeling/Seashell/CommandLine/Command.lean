import Seashell.CommandLine.Arguments
import Seashell.Path

set_option autoImplicit false

/-! # Commands

The commands that a command line can ask for: the conversion of a file, the analysis of a script and
the re-encoding of a directory. A `Command` has its operands and options with their defaults filled
in, and is what `Command.run` runs; how a user spells it is of no concern there.

The rest of this module is one such spelling. `globalRules` are the options in front of a command,
and `convertRules`, `analyzeRules` and `reencodeRules` those behind its name. `read` takes them off
in turn, by the general reader of `Seashell.CommandLine.Arguments`. A command line that asks for
nothing is a `Misuse`. -/

namespace Seashell.CommandLine

/-- A command with its operands and options. -/
inductive Command where
  /-- Converts the file at `input` into output of a `kind`, by `settings` from a file if there are
      some. -/
  | convert (input : Path) (kind : Text) (settings : Option Path)
  /-- Prints the report on a script in a `format`, or its `trace`. -/
  | analyze (input : Path) (format : Text) (trace : Bool)
  /-- Re-encodes the directory `root` from `source` to `target`; the `extensions` stand between
      commas. -/
  | reencode (root : Path) (source target : Text) (extensions : Option Text) (backup silent : Bool)
deriving Repr, DecidableEq

/-- The options in front of a command. -/
def globalRules : List OptionRule :=
  [{ key := "verbose", long := "--verbose", short := some 'v' }]

/-- The options of `Command.convert`. -/
def convertRules : List OptionRule :=
  [{ key := "to", long := "--to", short := some 't', takesValue := true },
    { key := "config", long := "--config", short := some 'c', takesValue := true }]

/-- The options of `Command.analyze`. -/
def analyzeRules : List OptionRule :=
  [{ key := "format", long := "--format", short := some 'f', takesValue := true },
    { key := "trace", long := "--trace" }]

/-- The options of `Command.reencode`. Whether to keep a backup is one option with two spellings. -/
def reencodeRules : List OptionRule :=
  [{ key := "ext", long := "--ext", takesValue := true },
    { key := "backup", long := "--backup" },
    { key := "no-backup", long := "--no-backup" },
    { key := "silent", long := "--silent" }]

/-- The last of the two spellings counts; without one of them a backup is kept. -/
def keepsBackup (a : Arguments) : Bool :=
  let isSwitch (o : Text × Text) : Bool := o.1 == "backup".toList || o.1 == "no-backup".toList
  match a.options.reverse.find? isSwitch with
  | some (key, _) => key == "backup".toList
  | none => true

/-- Why a command line asks for no `Command`. -/
inductive Misuse where
  /-- It is not what the program understands. -/
  | usage
  /-- A path holds a NUL character. -/
  | nul (path : Text)
deriving Repr, DecidableEq

/-- The arguments of a command by its `rules`. -/
def argumentsOf (rules : List OptionRule) (mixed : Bool) (args : List Text) :
    Except Misuse Arguments :=
  match readArguments rules mixed args with
  | some a => .ok a
  | none => .error .usage

/-- The path that the argument `t` names. -/
def pathOf (t : Text) : Except Misuse Path :=
  if t.contains '\x00' then .error (.nul t) else .ok (.ofText t)

/-- The first operand as a path, by `pathOf`, and the others. The path is looked at before the
    others are counted. -/
def pathOperand : List Text → Except Misuse (Path × List Text)
  | [] => .error .usage
  | t :: others => do return (← pathOf t, others)

/-- Reads the arguments of the command `name`. The values of options are looked at before the
    operands. -/
def readCommand (name : Text) (args : List Text) : Except Misuse Command :=
  match String.ofList name with
  | "convert" => do
    let a ← argumentsOf convertRules true args
    let settings ← (a.value? "config").mapM pathOf
    match ← pathOperand a.operands with
    | (input, []) => return .convert input ((a.value? "to").getD "sh") settings
    | _ => throw .usage
  | "analyze" => do
    let a ← argumentsOf analyzeRules true args
    match ← pathOperand a.operands with
    | (input, []) => return .analyze input ((a.value? "format").getD "yaml") (a.has "trace")
    | _ => throw .usage
  | "encode" => do
    let a ← argumentsOf reencodeRules true args
    match ← pathOperand a.operands with
    | (root, [source, target]) =>
      return .reencode root source target (a.value? "ext") (keepsBackup a) (a.has "silent")
    | _ => throw .usage
  | _ => .error .usage

/-- Reads a command line: the options of `globalRules`, the name of a command, and what
    `readCommand` makes of the rest. -/
def read (args : List Text) : Except Misuse Command := do
  let a ← argumentsOf globalRules false args
  match a.operands with
  | [] => throw .usage
  | name :: rest => readCommand name rest

end Seashell.CommandLine
