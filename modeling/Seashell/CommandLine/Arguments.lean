import Seashell.Text.Basic

set_option autoImplicit false

/-! # Arguments of a command line

Options begin with a hyphen; everything else is an operand. A long option has two hyphens and takes
its value after an equals sign or from the next argument (`readLong`). Short options have one hyphen
and one letter, and may stand together (`readCluster`); one that takes a value takes what follows in
its argument, or the next argument. Two hyphens alone end the options.

Which options there are is up to a command: it gives an `OptionRule` for each. `readArgument` says
what one argument stands for, its `Reading`, and `readArguments` goes through all of them and
collects their `Arguments`. An argument that is no option of the command, or an option without its
value, makes the whole command line unreadable. -/

namespace Seashell.CommandLine

/-- An option that a command knows. -/
structure OptionRule where
  /-- The name under which the option is given to the command. -/
  key : Text
  /-- The long spelling, with its hyphens. -/
  long : Text
  /-- The letter of the short spelling. -/
  short : Option Char := none
  takesValue : Bool := false
deriving Repr, DecidableEq

/-- What stands on a command line: options with their values, empty for options without one, and
    operands, both in order. -/
structure Arguments where
  options : List (Text × Text) := []
  operands : List Text := []
deriving Repr, DecidableEq

namespace Arguments

/-- Puts the option `key` in front. -/
def addOption (key value : Text) (a : Arguments) : Arguments :=
  { a with options := (key, value) :: a.options }

/-- Puts options without values in front, by their `keys`. -/
def addFlags (keys : List Text) (a : Arguments) : Arguments := keys.foldr (addOption · []) a

/-- Puts the operand `t` in front. -/
def addOperand (t : Text) (a : Arguments) : Arguments := { a with operands := t :: a.operands }

/-- The last value that is given to the option `key`. -/
def value? (a : Arguments) (key : Text) : Option Text :=
  (a.options.reverse.find? (·.1 == key)).map (·.2)

/-- The option `key` is given. -/
def has (a : Arguments) (key : Text) : Bool := (a.value? key).isSome

end Arguments

/-- The start of an argument of options: the options without value that are complete, and an option
    that still needs its value, with what follows it in the argument. -/
structure Cluster where
  flags : List Text
  pending : Option (Text × Text)

/-- Reads short options that stand together; `none` if one is not among the `rules`. -/
def readCluster (rules : List OptionRule) : Text → Option Cluster
  | [] => some ⟨[], none⟩
  | c :: cs =>
    match rules.find? (·.short == some c) with
    | none => none
    | some rule =>
      if rule.takesValue then some ⟨[], some (rule.key, cs)⟩
      else (readCluster rules cs).map fun cluster =>
        { cluster with flags := rule.key :: cluster.flags }

/-- What an argument stands for, as `readArgument` finds it. -/
inductive Reading where
  /-- Two hyphens alone. -/
  | endOfOptions
  | operand
  /-- Options that are complete. -/
  | flags (keys : List Text)
  | option (flags : List Text) (key value : Text)
  /-- Options of which the last takes the next argument as its value. -/
  | needsValue (flags : List Text) (key : Text)
  /-- No option that the command knows. -/
  | unknown

/-- Reads an argument with a long option: its name ends at an equals sign, behind which its value
    begins. -/
def readLong (rules : List OptionRule) (arg : Text) : Reading :=
  let name := arg.takeWhile (· != '=')
  match rules.find? (·.long == name) with
  | none => .unknown
  | some rule =>
    match arg.dropWhile (· != '='), rule.takesValue with
    | [], true => .needsValue [] rule.key
    | [], false => .flags [rule.key]
    | _ :: value, true => .option [] rule.key value
    | _ :: _, false => .unknown

/-- Reads an argument by the `rules` of a command. -/
def readArgument (rules : List OptionRule) : Text → Reading
  | ['-', '-'] => .endOfOptions
  | '-' :: '-' :: rest => readLong rules ('-' :: '-' :: rest)
  | '-' :: c :: rest =>
    match readCluster rules (c :: rest) with
    | none => .unknown
    | some ⟨flags, none⟩ => .flags flags
    | some ⟨flags, some (key, [])⟩ => .needsValue flags key
    | some ⟨flags, some (key, value)⟩ => .option flags key value
  | _ => .operand

/-- Reads arguments; `none` if one is unknown or lacks its value. Unless options and operands may be
    `mixed`, everything from the first operand on is an operand. -/
def readArguments (rules : List OptionRule) (mixed : Bool) : List Text → Option Arguments
  | [] => some {}
  | arg :: rest =>
    match readArgument rules arg with
    | .endOfOptions => some { operands := rest }
    | .operand =>
      if mixed then (readArguments rules mixed rest).map (.addOperand arg)
      else some { operands := arg :: rest }
    | .flags keys => (readArguments rules mixed rest).map (.addFlags keys)
    | .option flags key value =>
      (readArguments rules mixed rest).map fun a => (a.addOption key value).addFlags flags
    | .needsValue flags key =>
      match rest with
      | [] => none
      | value :: rest =>
        (readArguments rules mixed rest).map fun a => (a.addOption key value).addFlags flags
    | .unknown => none

end Seashell.CommandLine
